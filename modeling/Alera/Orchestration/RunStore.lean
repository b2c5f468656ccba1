/-
# Alera.Orchestration.RunStore -- runs, their plans and their gates

The operations of the runtime store that touch a run: creation
(`run_lifecycle.rs`, `orchestration_run_store.rs`), plan proposals
(`run_plan_proposal.rs`, `run_plan_materialization.rs`, `run_plan_gate_store.rs`),
stage evidence (`run_gate_evidence.rs`), gate resolution
(`run_gate_resolution.rs`), change requests (`run_changes.rs`), cancellation
(`run_cancellation.rs`), `runs.control` (`run_control.rs`), attention
(`run_execution.rs`), completion (`run_execution_completion.rs`) and the two ways a
coordinator's run ends (`orchestration_run_store.rs`).

Each definition is one transaction; `none` is an error, after which nothing has
changed, and a repeated request answers its receipt and changes nothing.  Row ids
are numbers.  A plan arrives compiled.  What is digested (requests, results,
evidence) is digested by parameters.  Whether the caller's terminal takes part in
the run is an argument.  Audit rows and the timeline are left out.
-/
import Alera.Cloud.Sessions
import Mathlib.Data.List.Sort

namespace Alera.Orchestration

open Theory.Tables

set_option autoImplicit false

abbrev Text := List Char

abbrev Time := Nat

/-! ## Tables -/

inductive RunStatus where
  | planning
  | awaitingApproval
  | running
  | paused
  | completed
  | failed
  | cancelled
  deriving DecidableEq

/-- `status IN ('completed','failed','cancelled')`. -/
def RunStatus.finished : RunStatus → Bool
  | .completed | .failed | .cancelled => true
  | .planning | .awaitingApproval | .running | .paused => false

inductive Isolation where
  | shared
  | isolated
  deriving DecidableEq

inductive PausedBy where
  | user
  | runtime
  deriving DecidableEq

/-- A row of `orchestrationCoordinatorRuns`. -/
structure RunRow where
  id : Nat
  workspaceId : Nat
  status : RunStatus
  isolation : Isolation
  approvalRequired : Bool
  stallPolicy : Text
  maxConcurrent : Nat
  planRevision : Option Nat
  pausedBy : Option PausedBy
  attentionReason : Option Text
  controlSequence : Nat
  completedAt : Option Time
  stopReason : Option Text
  coordinatorTabId : Option Nat
  integrationSha : Option Text
  deriving DecidableEq

/-- `holds_workspace`. -/
def RunRow.holdsWorkspace (run : RunRow) : Bool :=
  !run.status.finished || (run.status = .cancelled && run.completedAt.isNone)

inductive GateKind where
  | decision
  | stall
  | plan
  | stage
  deriving DecidableEq

inductive GateStatus where
  | pending
  | resolved
  | timeout
  | invalidated
  deriving DecidableEq

/-- A row of `runGates`. -/
structure GateRow where
  id : Nat
  runId : Option Nat
  taskId : Option Nat
  kind : GateKind
  scope : Text
  options : List Text
  status : GateStatus
  resolution : Option Text
  reason : Option Text
  planRevision : Option Nat
  evidenceDigest : Option Text
  integrationSha : Option Text
  deriving DecidableEq

/-- `kind IN ('plan','stage')`. -/
def GateKind.ofRun : GateKind → Bool
  | .plan | .stage => true
  | .decision | .stall => false

/-- A pending plan or stage gate of the run whose evidence is bound. -/
def GateRow.isOpen (run : Nat) (gate : GateRow) : Bool :=
  gate.runId = some run && gate.status = .pending && gate.kind.ofRun && gate.evidenceDigest.isSome

inductive TaskStatus where
  | pending
  | ready
  | dispatched
  | completed
  | failed
  | blocked
  | stalled
  | cancelled
  deriving DecidableEq

/-- A row of `runTaskEvidence`. -/
structure EvidenceRow where
  resultDigest : Text
  artifactDigest : Text
  integrationSha : Text
  deriving DecidableEq

/-- A row of `orchestrationTasks`, with its evidence and whether a dispatch names it. -/
structure TaskRow where
  id : Nat
  runId : Option Nat
  planRevision : Option Nat
  logicalId : Text
  stageId : Text
  status : TaskStatus
  result : Option Text
  evidence : Option EvidenceRow
  dispatched : Bool
  deriving DecidableEq

structure StageSpec where
  id : Text
  name : Text
  dependsOn : List Text
  gate : Bool
  deriving DecidableEq

structure PlanTask where
  id : Text
  stageId : Text
  dependsOn : List Text
  correctsTaskId : Option Nat
  deriving DecidableEq

/-- A compiled plan. -/
structure PlanSnapshot where
  stages : List StageSpec
  tasks : List PlanTask
  digest : Text
  maxConcurrent : Nat
  deriving DecidableEq

/-- A row of `runPlanRevisions`. -/
structure RevisionRow where
  runId : Nat
  revision : Nat
  requestId : Text
  requestDigest : Text
  plan : PlanSnapshot
  deriving DecidableEq

inductive IntegrationState where
  | pending
  | prepared
  | integrated
  | conflict
  | attention
  deriving DecidableEq

/-- `state IN ('pending','prepared','attention')`. -/
def IntegrationState.unsettled : IntegrationState → Bool
  | .pending | .prepared | .attention => true
  | .integrated | .conflict => false

/-- What is read here of `runIntegrations`. -/
structure IntegrationRow where
  runId : Nat
  state : IntegrationState
  hasReceipt : Bool
  cancelled : Bool
  deriving DecidableEq

inductive TargetState where
  | pending
  | settled
  | attention
  deriving DecidableEq

/-- What a cancellation has to stop. -/
inductive TargetId where
  | worker (launch : Nat)
  | coordinator (tab : Nat)
  deriving DecidableEq

/-- A row of `runCancellationTargets`. -/
structure TargetRow where
  id : TargetId
  runId : Nat
  state : TargetState
  deriving DecidableEq

structure LaunchRow where
  id : Nat
  runId : Nat
  deriving DecidableEq

/-- A row of `runCommandReceipts`. -/
structure ReceiptRow where
  requestId : Text
  digest : Text
  runId : Nat
  deriving DecidableEq

/-- What happens around runs: tasks, integrations, launches and shutdowns. -/
structure Work where
  tasks : List TaskRow
  integrations : List IntegrationRow
  launches : List LaunchRow
  targets : List TargetRow
  deriving DecidableEq

structure Store where
  runs : List RunRow
  gates : List GateRow
  revisions : List RevisionRow
  receipts : List ReceiptRow
  work : Work
  deriving DecidableEq

namespace Store

def run? (store : Store) (run : Nat) : Option RunRow := lookup RunRow.id run store.runs

def updateRun (store : Store) (run : Nat) (set : RunRow → RunRow) : Store :=
  { store with runs := updateWhere store.runs (·.id = run) set }

def updateGates (store : Store) (selects : GateRow → Bool) (set : GateRow → GateRow) : Store :=
  { store with gates := updateWhere store.gates selects set }

def updateTasks (store : Store) (selects : TaskRow → Bool) (set : TaskRow → TaskRow) : Store :=
  { store with work := { store.work with tasks := updateWhere store.work.tasks selects set } }

/-- The unique index on the workspaces that runs hold. -/
def commit (store : Store) : Option Store :=
  if ((store.runs.filter RunRow.holdsWorkspace).map RunRow.workspaceId).Nodup then some store
  else none

/-- A primary key that exists makes the insert fail. -/
def insertGate (store : Store) (gate : GateRow) : Option Store :=
  if store.gates.any (·.id = gate.id) then none else some { store with gates := store.gates ++ [gate] }

/-- Whether an unresolved plan or stage gate of the run is due. -/
def gated (store : Store) (run : Nat) : Bool := store.gates.any (GateRow.isOpen run)

def receipt? (store : Store) (requestId : Text) : Option ReceiptRow :=
  lookup ReceiptRow.requestId requestId store.receipts

def revision? (store : Store) (run revision : Nat) : Option RevisionRow :=
  store.revisions.find? fun row => row.runId = run && row.revision = revision

/-- The revision that the run's plan is at. -/
def currentRevision (store : Store) (run : RunRow) : Option RevisionRow :=
  run.planRevision.bind (store.revision? run.id)

/-- `INSERT INTO runPlanRevisions`, under its primary and unique keys. -/
def insertRevision (store : Store) (row : RevisionRow) : Option Store :=
  if (store.revision? row.runId row.revision).isSome ||
      store.revisions.any (·.requestId = row.requestId) then none
  else some { store with revisions := store.revisions ++ [row] }

/-- An integration that nobody has settled. -/
def unsettledIntegration (store : Store) (run : Nat) : Bool :=
  store.work.integrations.any fun row => row.runId = run && !row.cancelled && row.state.unsettled

end Store

/-! ## Texts -/

/-- `workflow_text`. -/
def workflowText (value : Text) (max : Nat) : Bool :=
  !(Cloud.trim value).isEmpty && Cloud.byteLength value ≤ max && !value.contains '\x00'

/-- `portable_request_id`. -/
def portableRequestId (id : Text) : Bool :=
  workflowText id 160 && id.all fun c =>
    (c.val < 128 && c.isAlphanum) || c = '-' || c = '_' || c = ':' || c = '.'

/-- A reason, or `none` when only blanks were given. -/
def trimmedReason (reason : Option Text) : Option Text :=
  (reason.map Cloud.trim).filter (!·.isEmpty)

def gateApprove : Text := "approve".toList

def gateRequestChanges : Text := "requestChanges".toList

def gateReject : Text := "reject".toList

/-- `RUN_GATE_OPTIONS`. -/
def runGateOptions : List Text := [gateApprove, gateRequestChanges, gateReject]

/-! ## Creating runs -/

/-- `create_planned_orchestration_coordinator_run`: a shared run. -/
def createPlannedRun (store : Store) (id workspaceId : Nat) (approvalRequired : Bool)
    (stallPolicy : Text) (maxConcurrent : Nat) : Option Store := do
  guard (!store.runs.any fun run => run.workspaceId = workspaceId && run.holdsWorkspace)
  guard (!store.runs.any (·.id = id))
  let run : RunRow :=
    { id, workspaceId, approvalRequired, stallPolicy, maxConcurrent
      status := if approvalRequired then .planning else .running
      isolation := .shared
      planRevision := none
      pausedBy := none
      attentionReason := none
      controlSequence := 0
      completedAt := none
      stopReason := none
      coordinatorTabId := none
      integrationSha := none }
  return { store with runs := store.runs ++ [run] }

/-- `CreateRun`, once its recipe, profiles and source are frozen. -/
structure CreateRun where
  requestId : Text
  digest : Text
  workspaceId : Nat
  isolation : Isolation
  approvalRequired : Bool
  stallPolicy : Text
  maxConcurrent : Nat
  coordinatorTabId : Option Nat
  sourceSha : Option Text
  deriving DecidableEq

/-- `create_run`. -/
def createRun (store : Store) (request : CreateRun) (id : Nat) : Option Store :=
  match store.receipt? request.requestId with
  | some receipt => if receipt.digest = request.digest then some store else none
  | none => do
      guard (!store.runs.any fun run => run.workspaceId = request.workspaceId && run.holdsWorkspace)
      guard (!store.runs.any (·.id = id))
      let run : RunRow :=
        { id
          workspaceId := request.workspaceId
          status := .planning
          isolation := request.isolation
          approvalRequired := request.approvalRequired
          stallPolicy := request.stallPolicy
          maxConcurrent := request.maxConcurrent
          planRevision := none
          pausedBy := none
          attentionReason := none
          controlSequence := 0
          completedAt := none
          stopReason := none
          coordinatorTabId := request.coordinatorTabId
          integrationSha := if request.isolation = .isolated then request.sourceSha else none }
      return { store with
        runs := store.runs ++ [run]
        receipts := store.receipts ++ [⟨request.requestId, request.digest, id⟩] }

/-! ## Proposing a plan -/

def GateRow.invalidate (gate : GateRow) : GateRow := { gate with status := .invalidated }

def TaskRow.cancel (task : TaskRow) : TaskRow := { task with status := .cancelled }

/-- `require_proposable`. -/
def RunRow.proposable (run : RunRow) : Bool :=
  match run.isolation with
  | .isolated => run.status = .planning || run.status = .awaitingApproval
  | .shared => !run.status.finished

/-- `supersede_unstarted_plan`. -/
def supersedeUnstartedPlan (store : Store) (run : Nat) : Store :=
  (store.updateTasks
    (fun task => task.runId = some run && task.planRevision.isSome &&
      (task.status = .pending || task.status = .ready) && !task.dispatched)
    TaskRow.cancel).updateGates
    (fun gate => gate.runId = some run && gate.kind.ofRun && gate.status = .pending)
    GateRow.invalidate

/-- The row `insert_run_gate` writes. -/
def newRunGate (id run : Nat) (kind : GateKind) (scope : Text) (revision : Nat)
    (evidenceDigest : Option Text) : GateRow where
  id
  runId := some run
  taskId := none
  kind
  scope
  options := runGateOptions
  status := .pending
  resolution := none
  reason := none
  planRevision := some revision
  evidenceDigest
  integrationSha := none

/-- The tasks of `materialize`. -/
def materializedTask (run : RunRow) (revision : Nat) (newTaskId : Text → Nat) (task : PlanTask) :
    TaskRow where
  id := newTaskId task.id
  runId := some run.id
  planRevision := some revision
  logicalId := task.id
  stageId := task.stageId
  status := if run.isolation = .isolated || !task.dependsOn.isEmpty then .pending else .ready
  result := none
  evidence := none
  dispatched := false

/-- The stage gates of `materialize`, not due yet. -/
def materializeGates (store : Store) (run revision : Nat) (newGateId : Text → Nat) :
    List StageSpec → Option Store
  | [] => some store
  | stage :: stages => do
      let store ← store.insertGate (newRunGate (newGateId stage.id) run .stage stage.id revision none)
      materializeGates store run revision newGateId stages

/-- `materialize`. -/
def materialize (store : Store) (run : RunRow) (revision : Nat) (plan : PlanSnapshot)
    (newTaskId newGateId : Text → Nat) : Option Store :=
  let tasks := store.work.tasks ++ plan.tasks.map (materializedTask run revision newTaskId)
  materializeGates { store with work := { store.work with tasks } } run.id revision newGateId
    (plan.stages.filter (·.gate))

/-- `open_plan_gate`: supersedes a pending plan gate. -/
def openPlanGate (store : Store) (id run revision : Nat) (digest : Text) : Option Store :=
  (store.updateGates
    (fun gate => gate.runId = some run && gate.kind = .plan && gate.status = .pending)
    GateRow.invalidate).insertGate
    (newRunGate id run .plan "plan".toList revision (some digest))

/-- `RunPlanInput`, compiled, with the ids the transaction draws. -/
structure ProposePlan where
  runId : Nat
  requestId : Option Text
  requestDigest : Text
  stallPolicy : Option Text
  plan : PlanSnapshot
  generatedRequestId : Text
  newTaskId : Text → Nat
  newGateId : Text → Nat
  planGateId : Nat

/-- The plan gate of a proposal that needs one. -/
def openNeededGate (store : Store) (needed : Bool) (run revision : Nat) (request : ProposePlan) :
    Option Store :=
  if needed then openPlanGate store request.planGateId run revision request.plan.digest
  else some store

/-- Whether a person has approved a plan of the run (`plan_approved`). -/
def Store.planApproved (store : Store) (run : Nat) : Bool :=
  store.gates.any fun gate => gate.runId = some run && gate.kind = .plan &&
    gate.status = .resolved && gate.resolution = some gateApprove

/-- `needs_gate`. -/
def Store.needsGate (store : Store) (run : RunRow) : Bool :=
  run.approvalRequired && (run.isolation = .isolated || !store.planApproved run.id)

/-- The transaction of `propose_run_plan` past its receipt. -/
def storePlan (store : Store) (run : RunRow) (request : ProposePlan) : Option Store := do
  let revision := run.planRevision.getD 0 + 1
  let superseded := supersedeUnstartedPlan store run.id
  guard (request.plan.tasks.all fun task => task.correctsTaskId.all fun corrected =>
    superseded.work.tasks.any fun row =>
      row.runId = some run.id && row.id = corrected && row.planRevision.isSome)
  let inserted ← superseded.insertRevision
    ⟨run.id, revision, request.requestId.getD request.generatedRequestId, request.requestDigest,
      request.plan⟩
  let materialized ←
    materialize inserted run revision request.plan request.newTaskId request.newGateId
  let needsGate := store.needsGate run
  let opened ← openNeededGate materialized needsGate run.id revision request
  let status : RunStatus :=
    if needsGate then .awaitingApproval else if run.status = .paused then .paused else .running
  (opened.updateRun run.id fun row =>
    { row with
      planRevision := some revision
      status
      stallPolicy := request.stallPolicy.getD run.stallPolicy
      maxConcurrent := request.plan.maxConcurrent }).commit

/-- The receipt of a repeated proposal. -/
def Store.proposal? (store : Store) (request : ProposePlan) : Option RevisionRow :=
  request.requestId.bind fun id => store.revisions.find? (·.requestId = id)

/-- `propose_run_plan`. -/
def proposeRunPlan (store : Store) (request : ProposePlan) : Option Store :=
  match store.proposal? request with
  | some stored =>
    if stored.requestDigest = request.requestDigest && stored.runId = request.runId then some store
    else none
  | none => do
      guard (request.requestId.all portableRequestId && request.plan.tasks.length ≤ 128)
      let run ← store.run? request.runId
      guard run.proposable
      storePlan store run request

/-! ## Stage evidence -/

/-- What a stage's evidence digest is over. -/
structure TaskEvidence where
  id : Text
  resultDigest : Option Text
  artifactDigest : Option Text
  integrationSha : Option Text
  deriving DecidableEq

structure Digests where
  result : Option Text → Text
  evidence : List TaskEvidence → Text

/-- The worklist of `ancestors`.  Every entry is popped once, so the fuel is the number of entries
that can ever be pushed. -/
def ancestorsLoop (stages : List StageSpec) : Nat → List Text → List Text → Option (List Text)
  | _, seen, [] => some seen
  | 0, _, _ :: _ => none
  | fuel + 1, seen, id :: remaining =>
    if seen.contains id then ancestorsLoop stages fuel seen remaining
    else
      match stages.find? (·.id = id) with
      | none => none
      | some stage => ancestorsLoop stages fuel (id :: seen) (stage.dependsOn ++ remaining)

/-- The stage and every stage it depends on; `none` when one is missing. -/
def ancestors (stages : List StageSpec) (stageId : Text) : Option (List Text) :=
  ancestorsLoop stages (1 + (stages.map (·.dependsOn.length)).sum) [] [stageId]

/-- `stage_gate_approved`. -/
def stageGateApproved (store : Store) (run revision : Nat) (stageId : Text) : Bool :=
  store.gates.any fun gate => gate.runId = some run && gate.kind = .stage && gate.scope = stageId &&
    gate.planRevision = some revision && gate.status = .resolved &&
    gate.resolution = some gateApprove

/-- `ORDER BY logical_id`. -/
def byLogicalId (tasks : List TaskRow) : List TaskRow :=
  tasks.insertionSort fun a b => !List.lex b.logicalId a.logicalId fun x y => decide (x < y)

/-- The evidence of an integrated task, `none` unless it is complete and current. -/
def TaskRow.integratedEvidence (digests : Digests) (task : TaskRow) : Option TaskEvidence := do
  guard (task.status = .completed && task.result.isSome)
  let evidence ← task.evidence
  guard (evidence.resultDigest = digests.result task.result)
  return ⟨task.logicalId, some evidence.resultDigest, some evidence.artifactDigest,
    some evidence.integrationSha⟩

/-- `isolated_stage_evidence`; the outer `none` is an error. -/
def isolatedStageEvidence (digests : Digests) (store : Store) (run revision : Nat)
    (plan : PlanSnapshot) (stageId : Text) : Option (Option Text) :=
  if store.unsettledIntegration run then some none
  else do
    let stages ← ancestors plan.stages stageId
    let gatedStages := stages.filter fun prior =>
      prior ≠ stageId && plan.stages.any fun stage => stage.id = prior && stage.gate
    if gatedStages.all (stageGateApproved store run revision) then
      let rows := byLogicalId (store.work.tasks.filter fun task =>
        task.runId = some run && task.planRevision = some revision && stages.contains task.stageId)
      let expected := (plan.tasks.filter fun task => stages.contains task.stageId).length
      match rows.mapM (TaskRow.integratedEvidence digests) with
      | none => return none
      | some evidence =>
        return if evidence.length = expected && expected ≠ 0 then some (digests.evidence evidence)
          else none
    else return none

/-- `shared_stage_evidence`. -/
def sharedStageEvidence (digests : Digests) (store : Store) (run revision : Nat) (stageId : Text) :
    Option Text :=
  let rows := byLogicalId (store.work.tasks.filter fun task =>
    task.runId = some run && task.planRevision = some revision && task.stageId = stageId)
  if rows.isEmpty || !rows.all (·.status = .completed) then none
  else
    some (digests.evidence
      (rows.map fun task => ⟨task.logicalId, some (digests.result task.result), none, none⟩))

/-- `stage_evidence`: the digest and the integration it was taken at. -/
def stageEvidence (digests : Digests) (store : Store) (run : Nat) (stageId : Text) :
    Option (Option (Text × Option Text)) :=
  match (store.run? run).bind fun row => (store.currentRevision row).map (row, ·) with
  | none => some none
  | some (row, current) =>
    if row.isolation = .isolated then
      (isolatedStageEvidence digests store run current.revision current.plan stageId).map
        fun digest => digest.map (·, row.integrationSha)
    else
      some ((sharedStageEvidence digests store run current.revision stageId).map (·, none))

/-! ## Stage gates that become due -/

def GateRow.bindEvidence (digest : Text) (sha : Option Text) (gate : GateRow) : GateRow :=
  { gate with evidenceDigest := some digest, integrationSha := sha }

/-- The loop of `open_due_stage_gates`; answers whether a gate opened. -/
def openGates (digests : Digests) (run : Nat) : Store → List GateRow → Option (Bool × Store)
  | store, [] => some (false, store)
  | store, gate :: gates => do
      match ← stageEvidence digests store run gate.scope with
      | none => openGates digests run store gates
      | some (digest, sha) =>
        let bound := store.updateGates
          (fun row => row.id = gate.id && row.status = .pending && row.evidenceDigest.isNone)
          (GateRow.bindEvidence digest sha)
        let (_, opened) ← openGates digests run bound gates
        return (true, opened)

def RunRow.pauseForRuntime (run : RunRow) : RunRow :=
  { run with
    status := .paused
    pausedBy := some .runtime
    controlSequence := run.controlSequence + 1 }

/-- `open_due_stage_gates`. -/
def openDueStageGates (digests : Digests) (store : Store) (run : Nat) : Option Store := do
  let candidates := match store.run? run with
    | some row =>
      if row.status = .running then
        store.gates.filter fun gate => gate.runId = some run && gate.kind = .stage &&
          gate.status = .pending && gate.evidenceDigest.isNone &&
          gate.planRevision = row.planRevision
      else []
    | none => []
  let (opened, bound) ← openGates digests run store candidates
  return if opened then
    bound.updateRun run fun row => if row.status = .running then row.pauseForRuntime else row
  else bound

/-! ## Change requests and cancellation -/

/-- `ensure_no_active_work`. -/
def noActiveWork (store : Store) (run : Nat) : Bool :=
  !(store.work.tasks.any fun task =>
      task.runId = some run && (task.status = .dispatched || task.status = .stalled)) &&
    !store.unsettledIntegration run

/-- The request id and digest of a placeholder revision. -/
structure Placeholder where
  requestId : Text
  digest : Text
  deriving DecidableEq

/-- Copies the current plan into the next revision, if the run has one. -/
def insertPlaceholder (store : Store) (run : RunRow) (placeholder : Placeholder) :
    Option (Option Nat × Store) :=
  match store.currentRevision run with
  | some current =>
    (store.insertRevision
      ⟨run.id, current.revision + 1, placeholder.requestId, placeholder.digest, current.plan⟩).map
      (some (current.revision + 1), ·)
  | none => some (none, store)

/-- `request_run_changes`. -/
def requestRunChanges (store : Store) (run : Nat) (reason : Text) (taskIds : List Nat)
    (gateId : Option Nat) (placeholder : Placeholder) : Option Store := do
  guard (!(Cloud.trim reason).isEmpty)
  guard (noActiveWork store run)
  guard (taskIds.all fun id => store.work.tasks.any fun task => task.runId = some run && task.id = id)
  let row ← store.run? run
  let (revision, planned) ← insertPlaceholder store row placeholder
  let changed :=
    (planned.updateTasks
      (fun task => task.runId = some run && (task.status = .pending || task.status = .ready ||
        task.status = .blocked || task.status = .failed))
      TaskRow.cancel).updateGates
      (fun gate => gate.runId = some run && gate.status = .pending && gateId.all (gate.id ≠ ·))
      GateRow.invalidate
  return changed.updateRun run fun row =>
    { row with
      status := .planning
      pausedBy := none
      attentionReason := none
      planRevision := revision.or row.planRevision }

/-- `INSERT OR IGNORE INTO runCancellationTargets`. -/
def insertTargets (targets : List TargetRow) : List TargetRow → List TargetRow
  | [] => targets
  | new :: rest =>
    insertTargets (if targets.any (·.id = new.id) then targets else targets ++ [new]) rest

/-- Stamps a cancelled run once everything it started has stopped. -/
def finishCancellation (store : Store) (run : Nat) (now : Time) : Store :=
  let unsettled := store.work.targets.any fun target =>
    target.runId = run && target.state ≠ .settled
  store.updateRun run fun row =>
    if row.status = .cancelled && row.completedAt.isNone && !unsettled then
      { row with completedAt := some now }
    else row

/-- What `cancel` does to tasks, integrations and targets. -/
def cancelWork (store : Store) (run : Nat) : Work where
  tasks := updateWhere store.work.tasks
    (fun task => task.runId = some run && task.status ≠ .completed && task.status ≠ .failed &&
      task.status ≠ .cancelled)
    TaskRow.cancel
  integrations := updateWhere store.work.integrations
    (fun row => row.runId = run && !row.cancelled && row.state = .attention)
    fun row => { row with state := if row.hasReceipt then .prepared else .pending }
  launches := store.work.launches
  targets :=
    let workers := (store.work.launches.filter (·.runId = run)).map fun launch =>
      (⟨.worker launch.id, run, .pending⟩ : TargetRow)
    let coordinator := ((store.run? run).bind (·.coordinatorTabId)).toList.map fun tab =>
      (⟨.coordinator tab, run, .pending⟩ : TargetRow)
    updateWhere (insertTargets store.work.targets (workers ++ coordinator))
      (fun target => target.runId = run && target.state = .attention)
      fun target => { target with state := .pending }

/-- `cancel`. -/
def cancel (store : Store) (run : Nat) (reason : Text) (now : Time) : Store :=
  let worked : Store := { store with work := cancelWork store run }
  let ungated := worked.updateGates (fun gate => gate.runId = some run && gate.status = .pending)
    GateRow.invalidate
  let stopped := ungated.updateRun run fun row =>
    { row with
      status := .cancelled
      pausedBy := none
      stopReason := row.stopReason.or (some reason) }
  finishCancellation stopped run now

/-! ## Resolving a gate -/

structure ResolveGate where
  requestId : Text
  digest : Text
  gateId : Nat
  decision : Text
  reason : Option Text
  taskIds : List Nat
  expectedEvidenceDigest : Option Text
  /-- The caller is a terminal that takes part in the gate's run. -/
  participant : Bool
  placeholder : Placeholder
  now : Time
  deriving DecidableEq

/-- `RunGate.due`. -/
def GateRow.due (gate : GateRow) : Bool :=
  gate.status = .pending && (gate.kind ≠ .stage || gate.evidenceDigest.isSome)

/-- The digest clients see: an empty one is none. -/
def GateRow.shownDigest (gate : GateRow) : Option Text := gate.evidenceDigest.filter (!·.isEmpty)

def GateRow.resolve (decision : Text) (reason : Option Text) (gate : GateRow) : GateRow :=
  { gate with status := .resolved, resolution := some decision, reason }

def RunRow.approve (run : RunRow) : RunRow :=
  { run with status := .running, pausedBy := none, controlSequence := run.controlSequence + 1 }

def gateRejected (kind : GateKind) : Text :=
  (match kind with
    | .decision => "decision".toList
    | .stall => "stall".toList
    | .plan => "plan".toList
    | .stage => "stage".toList) ++ " gate rejected".toList

/-- The decision of a person on a plan or stage gate. -/
def decideRun (store : Store) (run : Nat) (gate : GateRow) (request : ResolveGate) (decision : Text)
    (reason : Option Text) : Option Store :=
  if decision = gateApprove then
    if gate.kind = .plan then
      some (store.updateRun run fun row =>
        if row.status = .awaitingApproval then row.approve else row)
    else
      some (store.updateRun run fun row =>
        if row.status = .paused && row.pausedBy = some .runtime && row.attentionReason.isNone &&
            !store.gated run then row.approve
        else row)
  else if decision = gateReject then
    some (cancel store run (reason.getD (gateRejected gate.kind)) request.now)
  else if decision = gateRequestChanges then
    (requestRunChanges store run (reason.getD []) request.taskIds (some gate.id)
      request.placeholder).map fun changed =>
      changed.updateRun run fun row => { row with controlSequence := row.controlSequence + 1 }
  else none

/-- `apply`: the effect of a resolution on its task or run.  Plan and stage gates name their run,
by a check of the table. -/
def applyDecision (store : Store) (gate : GateRow) (request : ResolveGate) (decision : Text)
    (reason : Option Text) : Option Store :=
  match gate.kind with
  | .decision =>
    some (store.updateTasks (fun task => some task.id = gate.taskId && task.status = .blocked)
      fun task => { task with status := .ready })
  | .stall => some store
  | .plan | .stage => decideRun store (gate.runId.getD 0) gate request decision reason

/-- Why a pending gate is not decided by this request, apart from stale evidence. -/
def ResolveGate.refused (request : ResolveGate) (gate : GateRow) (decision : Text) : Bool :=
  gate.status ≠ .pending || !gate.due ||
    (!gate.options.isEmpty && !gate.options.contains decision) || decision.isEmpty ||
    ((gate.kind.ofRun || gate.kind = .stall) && request.participant) ||
    gate.shownDigest.any fun stored => request.expectedEvidenceDigest ≠ some stored

/-- Whether a stage gate still shows the stage's evidence; `none` when that cannot be told. -/
def evidenceCurrent (digests : Digests) (store : Store) (gate : GateRow) : Option Bool :=
  if gate.kind = .stage then
    (stageEvidence digests store (gate.runId.getD 0) gate.scope).map fun current =>
      current.map Prod.fst = gate.shownDigest
  else some true

/-- The transaction of `resolve_run_gate` past its receipt. -/
def decideGate (digests : Digests) (store : Store) (request : ResolveGate) (gate : GateRow) :
    Option Store := do
  let decision := Cloud.trim request.decision
  guard (!request.refused gate decision)
  guard ((← evidenceCurrent digests store gate) = true)
  let reason := trimmedReason request.reason
  let resolved := store.updateGates (fun row => row.id = gate.id && row.status = .pending)
    (GateRow.resolve decision reason)
  let applied ← applyDecision resolved gate request decision reason
  let receipts := gate.runId.toList.map fun run => (⟨request.requestId, request.digest, run⟩ : ReceiptRow)
  Store.commit { applied with receipts := applied.receipts ++ receipts }

/-- `resolve_run_gate`. -/
def resolveRunGate (digests : Digests) (store : Store) (request : ResolveGate) : Option Store := do
  guard (portableRequestId request.requestId && workflowText request.decision 4096 &&
    request.reason.all (Cloud.byteLength · ≤ 4096))
  match store.receipt? request.requestId with
  | some receipt => if receipt.digest = request.digest then some store else none
  | none =>
    let gate ← lookup GateRow.id request.gateId store.gates
    decideGate digests store request gate

/-! ## Commands of a person -/

inductive ControlAction where
  | cancel
  | pause
  | resume
  | replan
  deriving DecidableEq

structure RunControl where
  requestId : Text
  digest : Text
  runId : Nat
  expectedSequence : Int
  action : ControlAction
  reason : Option Text
  taskIds : List Nat
  placeholder : Placeholder
  now : Time
  deriving DecidableEq

/-- `control`. -/
def control (store : Store) (request : RunControl) (status : RunStatus) : Option Store :=
  match request.action with
  | .pause =>
    if status = .running then
      some (store.updateRun request.runId fun row =>
        { row with status := .paused, pausedBy := some .user })
    else none
  | .resume =>
    if status = .paused && !store.gated request.runId then
      some (store.updateRun request.runId fun row =>
        { row with status := .running, pausedBy := none, attentionReason := none })
    else none
  | .cancel =>
    if status.finished then none
    else
      some (cancel store request.runId ((trimmedReason request.reason).getD "Cancelled.".toList)
        request.now)
  | .replan =>
    if status.finished then none
    else do
      let reason ← trimmedReason request.reason
      requestRunChanges store request.runId reason request.taskIds none request.placeholder

/-- `retry_cancellation`. -/
def retryCancellation (store : Store) (run : Nat) (now : Time) (status : RunStatus) : Option Store := do
  guard (status = .cancelled)
  guard ((store.work.targets.any fun target => target.runId = run && target.state = .attention) ||
    store.work.integrations.any fun row =>
      row.runId = run && !row.cancelled && row.state = .attention)
  return cancel store run "Run cancelled.".toList now

/-- `run_command`: one sequence-checked command with its receipt. -/
def runCommand (store : Store) (requestId digest : Text) (run : Nat) (expectedSequence : Int)
    (command : RunStatus → Option Store) : Option Store := do
  guard (portableRequestId requestId && 0 ≤ expectedSequence)
  match store.receipt? requestId with
  | some receipt => if receipt.digest = digest then some store else none
  | none =>
    let row ← store.run? run
    guard ((row.controlSequence : Int) = expectedSequence)
    let commanded ← command row.status
    let counted := commanded.updateRun run fun after =>
      { after with controlSequence := row.controlSequence + 1 }
    Store.commit { counted with receipts := counted.receipts ++ [⟨requestId, digest, run⟩] }

/-- `control_run`. -/
def controlRun (store : Store) (request : RunControl) : Option Store :=
  runCommand store request.requestId request.digest request.runId request.expectedSequence
    (control store request)

structure RetryCancellation where
  requestId : Text
  digest : Text
  runId : Nat
  expectedSequence : Int
  now : Time
  deriving DecidableEq

/-- `retry_run_cancellation`. -/
def retryRunCancellation (store : Store) (request : RetryCancellation) : Option Store :=
  runCommand store request.requestId request.digest request.runId request.expectedSequence
    (retryCancellation store request.runId request.now)

/-! ## The scheduler and the coordinator -/

/-- `pause_workflow_execution_for_attention`. -/
def pauseForAttention (store : Store) (run revision sequence : Nat) (reason : Text) : Store :=
  store.updateRun run fun row =>
    if row.planRevision = some revision && row.controlSequence = sequence && row.status = .running then
      { row.pauseForRuntime with attentionReason := some (reason.take 1000) }
    else row

/-- `complete_workflow_execution`. -/
def completeWorkflowExecution (digests : Digests) (store : Store) (run revision sequence : Nat)
    (now : Time) : Option Store := do
  let row ← store.run? run
  if row.planRevision = some revision && row.controlSequence = sequence && row.status = .running &&
      row.isolation = .isolated then
    let current ← store.revision? run revision
    guard (!store.unsettledIntegration run)
    let tasks := store.work.tasks.filter fun task =>
      task.runId = some run && task.planRevision = some revision
    guard (tasks.length = current.plan.tasks.length && tasks.length ≤ 128)
    guard (tasks.all fun task => (task.integratedEvidence digests).isSome)
    guard ((current.plan.stages.filter (·.gate)).all fun stage =>
      stageGateApproved store run revision stage.id)
    return store.updateRun run fun row =>
      { row with status := .completed, completedAt := some now, pausedBy := none }
  else return store

/-- `finish_orchestration_coordinator_run`. -/
def finishCoordinatorRun (store : Store) (run : Nat) (status : RunStatus) (now : Time) : Store :=
  store.updateRun run fun row =>
    if row.status.finished then row
    else { row with status, completedAt := some now, pausedBy := none }

/-- `stop_orchestration_coordinator_run`. -/
def stopCoordinatorRun (store : Store) (run : Nat) (reason : Text) (now : Time) : Store :=
  store.updateRun run fun row =>
    { row with status := .cancelled, completedAt := some now, stopReason := some reason }

end Alera.Orchestration
