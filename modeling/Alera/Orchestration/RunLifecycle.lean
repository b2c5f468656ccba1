/-
# Alera.Orchestration.RunLifecycle -- which operations end a run, and which bring it back

The operations on runs as one machine.  `orchestration_run_stop` reads the run in one
step and stops it in another; everything else is one transaction.  Tasks,
integrations and shutdowns change in between at will, and changed evidence replaces
stage gates.

What a step can do to a run's status, plan revision and control sequence is said once
(`RunChange`, `step_changes`), with the condition each writer checks.  Two writers check
none: a gate that is rejected or sent back acts on its run whatever the status, and a
stop acts on a run it saw earlier.  Where these two find the run unfinished, finished
runs stay finished (`finished_stays`); a plan gate left open by a stop brings a
cancelled run back to planning (`stopped_run_replanned`).
-/
import Alera.Orchestration.RunStore
import Alera.Theory.Runs

namespace Alera.Orchestration

open Theory Tables
open Option (map_some)

set_option autoImplicit false

/-! ## The machine -/

structure RunMachine where
  store : Store
  /-- The runs that stops in flight have checked. -/
  stops : Nat → Option Nat

inductive RunEvent where
  | createPlanned (id workspaceId : Nat) (approvalRequired : Bool) (stallPolicy : Text)
      (maxConcurrent : Nat)
  | create (request : CreateRun) (id : Nat)
  | propose (request : ProposePlan)
  | resolve (request : ResolveGate)
  | control (request : RunControl)
  | retry (request : RetryCancellation)
  | openDue (run : Nat)
  | attention (run revision sequence : Nat) (reason : Text)
  | complete (run revision sequence : Nat) (now : Time)
  | finish (run : Nat) (status : RunStatus) (now : Time)
  /-- `orchestration_run_stop` finds the run active. -/
  | checkStop (request run : Nat)
  | stop (request : Nat) (reason : Text) (now : Time)
  /-- A target of a cancellation has settled. -/
  | settleCancellation (run : Nat) (now : Time)
  /-- Workers, integrations and shutdowns. -/
  | work (work : Work)
  /-- Evidence of the run changed: `STAGE_GATE_INVALIDATION`. -/
  | evidenceChanged (run : Nat) (newId : Nat → Nat)

/-- Whether changed evidence revokes a gate. -/
def GateRow.revocable (run : Nat) (gate : GateRow) : Bool :=
  gate.runId = some run && gate.kind = .stage && gate.evidenceDigest.isSome &&
    (gate.status = .pending || (gate.status = .resolved && gate.resolution = some gateApprove))

def insertGates (store : Store) : List GateRow → Option Store
  | [] => some store
  | gate :: gates => do
      let store ← store.insertGate gate
      insertGates store gates

/-- `STAGE_GATE_INVALIDATION`: a fresh gate replaces each one that is revoked. -/
def invalidateStageGates (store : Store) (run : Nat) (newId : Nat → Nat) : Option Store :=
  let revision := (store.run? run).bind (·.planRevision)
  let replaced := store.gates.filter fun gate =>
    gate.revocable run && (store.run? run).isSome && gate.planRevision = revision
  let fresh := replaced.map fun gate =>
    { gate with
      id := newId gate.id
      status := .pending
      resolution := none
      reason := none
      evidenceDigest := none
      integrationSha := none }
  insertGates (store.updateGates (GateRow.revocable run) GateRow.invalidate) fresh

namespace RunMachine

def empty : RunMachine := ⟨⟨[], [], [], [], ⟨[], [], [], []⟩⟩, fun _ => none⟩

def step (digests : Digests) (m : RunMachine) : RunEvent → Option RunMachine
  | .createPlanned id workspaceId approvalRequired stallPolicy maxConcurrent =>
    (createPlannedRun m.store id workspaceId approvalRequired stallPolicy maxConcurrent).map
      fun store => { m with store }
  | .create request id => (createRun m.store request id).map fun store => { m with store }
  | .propose request => (proposeRunPlan m.store request).map fun store => { m with store }
  | .resolve request => (resolveRunGate digests m.store request).map fun store => { m with store }
  | .control request => (controlRun m.store request).map fun store => { m with store }
  | .retry request => (retryRunCancellation m.store request).map fun store => { m with store }
  | .openDue run => (openDueStageGates digests m.store run).map fun store => { m with store }
  | .attention run revision sequence reason =>
    some { m with store := pauseForAttention m.store run revision sequence reason }
  | .complete run revision sequence now =>
    (completeWorkflowExecution digests m.store run revision sequence now).map
      fun store => { m with store }
  | .finish run status now => some { m with store := finishCoordinatorRun m.store run status now }
  | .checkStop request run =>
    if (m.stops request).isNone && (m.store.run? run).any (·.holdsWorkspace) then
      some { m with stops := Function.update m.stops request (some run) }
    else none
  | .stop request reason now =>
    (m.stops request).map fun run =>
      ⟨stopCoordinatorRun m.store run reason now, Function.update m.stops request none⟩
  | .settleCancellation run now => some { m with store := finishCancellation m.store run now }
  | .work work => some { m with store := { m.store with work } }
  | .evidenceChanged run newId =>
    (invalidateStageGates m.store run newId).map fun store => { m with store }

end RunMachine

/-! ## What operations on runs leave alone -/

/-- Runs stay, at their commits. -/
def KeepsShas (s t : Store) : Prop :=
  ∀ id row, s.run? id = some row → ∃ row', t.run? id = some row' ∧ row'.integrationSha = row.integrationSha

structure Spares (s t : Store) : Prop where
  shas : KeepsShas s t
  integrations : t.work.integrations = s.work.integrations

/-- The integrations of a cancelled run that were in attention. -/
def release (run : Nat) (rows : List IntegrationRow) : List IntegrationRow :=
  updateWhere rows (fun row => row.runId = run && !row.cancelled && row.state = .attention)
    fun row => { row with state := if row.hasReceipt then .prepared else .pending }

inductive Touched (s t : Store) : Prop where
  | spared (spares : Spares s t)
  | released (run : Nat) (shas : KeepsShas s t)
      (integrations : t.work.integrations = release run s.work.integrations)

/-- Runs and integrations are as they were. -/
structure Leaves (s t : Store) : Prop where
  runs : t.runs = s.runs
  integrations : t.work.integrations = s.work.integrations

/-! ## Closing gates -/

/-- The open gates of the run are gates of the first store, as they were. -/
def Narrows (s t : Store) (run : Nat) : Prop :=
  ∀ gate ∈ t.gates, gate.isOpen run = true → gate ∈ s.gates

/-- Gates are updated under their keys, and no evidence is taken away. -/
structure Regates (s t : Store) : Prop where
  ids : t.gates.map GateRow.id = s.gates.map GateRow.id
  rows : ∀ gate ∈ t.gates, ∃ old ∈ s.gates, gate.runId = old.runId ∧ gate.kind = old.kind ∧
    (old.evidenceDigest.isSome → gate.evidenceDigest.isSome)

/-- Gates are closed, and nothing else happens to them. -/
structure ClosesGates (s t : Store) : Prop extends Regates s t where
  narrows : ∀ run, Narrows s t run

/-- What an update leaves of a gate's columns. -/
structure KeepsGate (set : GateRow → GateRow) : Prop where
  id : ∀ gate, (set gate).id = gate.id
  runId : ∀ gate, (set gate).runId = gate.runId
  kind : ∀ gate, (set gate).kind = gate.kind
  bound : ∀ gate, gate.evidenceDigest.isSome → (set gate).evidenceDigest.isSome

theorem resolve_keeps (decision : Text) (reason : Option Text) :
    KeepsGate (GateRow.resolve decision reason) :=
  ⟨fun _ => rfl, fun _ => rfl, fun _ => rfl, fun _ bound => bound⟩

variable {run : Nat} {gate : GateRow}

theorem GateRow.isOpen_iff :
    gate.isOpen run = true ↔ gate.runId = some run ∧ gate.status = .pending ∧
      gate.kind.ofRun = true ∧ gate.evidenceDigest.isSome = true := by
  simp only [GateRow.isOpen, Bool.and_eq_true, decide_eq_true_eq, and_assoc]

section Gates

variable {s t u : Store} {selects : GateRow → Bool} {set : GateRow → GateRow}

theorem Regates.trans (first : Regates s t) (second : Regates t u) : Regates s u where
  ids := second.ids.trans first.ids
  rows gate member := by
    obtain ⟨middle, memberMiddle, runId, kind, bound⟩ := second.rows gate member
    obtain ⟨old, memberOld, runId', kind', bound'⟩ := first.rows middle memberMiddle
    exact ⟨old, memberOld, runId.trans runId', kind.trans kind', fun some => bound (bound' some)⟩

theorem ClosesGates.trans (first : ClosesGates s t) (second : ClosesGates t u) : ClosesGates s u where
  toRegates := first.toRegates.trans second.toRegates
  narrows run gate member isOpen :=
    first.narrows run gate (second.narrows run gate member isOpen) isOpen

/-- Only the gates of a store matter. -/
theorem ClosesGates.of_gates (closes : ClosesGates s t) (same : u.gates = t.gates) : ClosesGates s u := by
  obtain ⟨⟨ids, rows⟩, narrows⟩ := closes
  refine ⟨⟨?_, ?_⟩, fun run => ?_⟩
  · rw [same, ids]
  · rw [same]
    exact rows
  · rw [Narrows, same]
    exact narrows run

theorem ClosesGates.refl (s : Store) : ClosesGates s s :=
  ⟨⟨rfl, fun gate member => ⟨gate, member, rfl, rfl, fun bound => bound⟩⟩, fun _ _ member _ => member⟩

theorem closesGates_of_same (same : t.gates = s.gates) : ClosesGates s t :=
  (ClosesGates.refl s).of_gates same

theorem updateGates_regates (keeps : KeepsGate set) : Regates s (s.updateGates selects set) where
  ids := map_updateWhere keeps.id
  rows gate member := by
    obtain ⟨old, memberOld, rfl⟩ := mem_updateWhere.mp member
    refine ⟨old, memberOld, ?_⟩
    split
    · exact ⟨keeps.runId old, keeps.kind old, keeps.bound old⟩
    · exact ⟨rfl, rfl, fun bound => bound⟩

theorem updateGates_closes (keeps : KeepsGate set) (closes : ∀ gate, (set gate).status ≠ .pending) :
    ClosesGates s (s.updateGates selects set) where
  toRegates := updateGates_regates keeps
  narrows run gate member isOpen := by
    obtain ⟨old, -, -, rfl⟩ | ⟨memberOld, -⟩ := mem_updateWhere_cases member
    · exact absurd (GateRow.isOpen_iff.mp isOpen).2.1 (closes old)
    · exact memberOld

theorem invalidate_closes (selects : GateRow → Bool) :
    ClosesGates s (s.updateGates selects GateRow.invalidate) :=
  updateGates_closes ⟨fun _ => rfl, fun _ => rfl, fun _ => rfl, fun _ bound => bound⟩ fun _ pending => by cases pending

end Gates

/-! ## Rewriting one run -/

/-- The second store is the first with one run's row rewritten. -/
def Rewrites (s t : Store) (run : Nat) (set : RunRow → RunRow) : Prop :=
  ∀ id, t.run? id = if id = run then (s.run? id).map set else s.run? id

/-- One run's row is rewritten at its commit, and integrations stay or are released with it. -/
structure Amends (s t : Store) (run : Nat) (set : RunRow → RunRow) : Prop where
  rewrites : Rewrites s t run set
  sha : ∀ row, (set row).integrationSha = row.integrationSha
  integrations : t.work.integrations = s.work.integrations ∨
    t.work.integrations = release run s.work.integrations

/-- One run's row is rewritten, and gates are closed at most. -/
structure Closing (s t : Store) (run : Nat) (set : RunRow → RunRow) : Prop extends
    Amends s t run set where
  closes : ClosesGates s t

section Rewriting

variable {s t u : Store} {run : Nat} {f g : RunRow → RunRow}

theorem Leaves.trans (first : Leaves s t) (second : Leaves t u) : Leaves s u :=
  ⟨second.runs.trans first.runs, second.integrations.trans first.integrations⟩

theorem updateRun_rewrites (keeps : ∀ row, (f row).id = row.id) :
    Rewrites s (s.updateRun run f) run f :=
  fun id => lookup_updateWhere keeps id run

theorem Rewrites.trans (first : Rewrites s t run f) (second : Rewrites t u run g) :
    Rewrites s u run fun row => g (f row) := by
  intro id
  rw [second id, first id]
  split
  · rw [Option.map_map]
    rfl
  · rfl

/-- Anything that leaves the runs alone rewrites no row. -/
theorem Rewrites.of_same (same : t.runs = s.runs) : Rewrites s t run fun row => row := by
  intro id
  rw [Store.run?, same, Option.map_id']
  exact (ite_self _).symm

theorem Leaves.amends (leaves : Leaves s t) : Amends s t run fun row => row :=
  ⟨.of_same leaves.runs, fun _ => rfl, .inl leaves.integrations⟩

/-- Another write to the same row. -/
theorem Amends.updateRun (amends : Amends s t run f) (id : ∀ row, (g row).id = row.id)
    (sha : ∀ row, (g row).integrationSha = row.integrationSha) :
    Amends s (t.updateRun run g) run fun row => g (f row) :=
  ⟨amends.rewrites.trans (updateRun_rewrites id), fun row => (sha (f row)).trans (amends.sha row),
    amends.integrations⟩

theorem Closing.updateRun (closing : Closing s t run f) (id : ∀ row, (g row).id = row.id)
    (sha : ∀ row, (g row).integrationSha = row.integrationSha) :
    Closing s (t.updateRun run g) run fun row => g (f row) :=
  ⟨closing.toAmends.updateRun id sha, closing.closes.of_gates rfl⟩

theorem updateRun_closing (id : ∀ row, (f row).id = row.id)
    (sha : ∀ row, (f row).integrationSha = row.integrationSha) : Closing s (s.updateRun run f) run f :=
  ⟨⟨updateRun_rewrites id, sha, .inl rfl⟩, closesGates_of_same rfl⟩

theorem Amends.touched (amends : Amends s t run f) : Touched s t := by
  have shas : KeepsShas s t := by
    intro id row found
    rw [amends.rewrites id]
    split
    · rw [found]
      exact ⟨f row, rfl, amends.sha row⟩
    · exact ⟨row, found, rfl⟩
  obtain same | released := amends.integrations
  · exact .spared ⟨shas, same⟩
  · exact .released run shas released

theorem commit_some (committed : s.commit = some t) : t = s := by
  rw [Store.commit] at committed
  split at committed
  · exact (Option.some.inj committed).symm
  · cases committed

variable {gate : GateRow}

theorem insertGate_some (inserted : s.insertGate gate = some t) :
    t = { s with gates := s.gates ++ [gate] } ∧ ∀ other ∈ s.gates, other.id ≠ gate.id := by
  obtain ⟨fresh, inserted⟩ := of_unless inserted
  refine ⟨(Option.some.inj inserted).symm, fun other member same => fresh ?_⟩
  exact List.any_eq_true.mpr ⟨other, member, decide_eq_true same⟩

theorem insertGate_leaves (inserted : s.insertGate gate = some t) : Leaves s t := by
  obtain ⟨rfl, -⟩ := insertGate_some inserted
  exact ⟨rfl, rfl⟩

theorem insertRevision_some {row : RevisionRow} (inserted : s.insertRevision row = some t) :
    t = { s with revisions := s.revisions ++ [row] } := by
  rw [Store.insertRevision] at inserted
  split at inserted
  · cases inserted
  · exact (Option.some.inj inserted).symm

theorem insertPlaceholder_some {row : RunRow} {placeholder : Placeholder} {planned : Option Nat}
    (inserted : insertPlaceholder s row placeholder = some (planned, t)) :
    ∃ revisions, t = { s with revisions } := by
  rw [insertPlaceholder] at inserted
  split at inserted
  · obtain ⟨store, insert, pair⟩ := of_map inserted
    cases pair
    exact ⟨_, insertRevision_some insert⟩
  · cases inserted
    exact ⟨s.revisions, rfl⟩

theorem insertGates_leaves {gates : List GateRow} (done : insertGates s gates = some t) : Leaves s t := by
  induction gates generalizing s with
  | nil =>
    cases done
    exact ⟨rfl, rfl⟩
  | cons gate gates ih =>
    obtain ⟨inserted, first, rest⟩ := of_bind done
    exact (insertGate_leaves first).trans (ih rest)

theorem materializeGates_eq (s : Store) (run revision : Nat) (newGateId : Text → Nat)
    (stages : List StageSpec) : materializeGates s run revision newGateId stages =
      insertGates s (stages.map fun stage =>
        newRunGate (newGateId stage.id) run .stage stage.id revision none) := by
  induction stages generalizing s with
  | nil => rfl
  | cons stage stages ih => exact Option.bind_congr fun inserted _ => ih inserted

variable {revision : Nat}

theorem materialize_leaves {row : RunRow} {plan : PlanSnapshot} {newTaskId newGateId : Text → Nat}
    (done : materialize s row revision plan newTaskId newGateId = some t) : Leaves s t := by
  rw [materialize, materializeGates_eq] at done
  have made := insertGates_leaves done
  exact ⟨made.runs, made.integrations⟩

theorem openNeededGate_leaves {needed : Bool} {request : ProposePlan}
    (done : openNeededGate s needed run revision request = some t) : Leaves s t := by
  rw [openNeededGate] at done
  split at done
  · have opened := insertGate_leaves done
    exact ⟨opened.runs, opened.integrations⟩
  · cases done
    exact ⟨rfl, rfl⟩

theorem openGates_leaves {digests : Digests} {gates : List GateRow} {opened : Bool}
    (done : openGates digests run s gates = some (opened, t)) : Leaves s t := by
  induction gates generalizing s opened with
  | nil =>
    cases done
    exact ⟨rfl, rfl⟩
  | cons gate gates ih =>
    obtain ⟨evidence, _, rest⟩ := of_bind done
    cases evidence with
    | none => exact ih rest
    | some bound =>
      obtain ⟨⟨later, store⟩, inner, done⟩ := of_bind rest
      cases done
      have bounds := ih inner
      exact ⟨bounds.runs, bounds.integrations⟩

/-- The columns of a cancelled run. -/
structure Cancels (set : RunRow → RunRow) : Prop where
  id : ∀ row, (set row).id = row.id
  status : ∀ row, (set row).status = .cancelled
  planRevision : ∀ row, (set row).planRevision = row.planRevision
  controlSequence : ∀ row, (set row).controlSequence = row.controlSequence

theorem finishCancellation_closing (closing : Closing s t run f) (now : Time) :
    ∃ set, Closing s (finishCancellation t run now) run set ∧
      ∀ row, (set row).id = (f row).id ∧ (set row).status = (f row).status ∧
        (set row).planRevision = (f row).planRevision ∧
        (set row).controlSequence = (f row).controlSequence := by
  have keeps : ∀ (unsettled : Bool) (row : RunRow),
      let row' := if row.status = .cancelled && row.completedAt.isNone && !unsettled then
        { row with completedAt := some now } else row
      row'.integrationSha = row.integrationSha ∧ row'.id = row.id ∧ row'.status = row.status ∧
        row'.planRevision = row.planRevision ∧ row'.controlSequence = row.controlSequence := by
    intro unsettled row
    split
    · exact ⟨rfl, rfl, rfl, rfl, rfl⟩
    · exact ⟨rfl, rfl, rfl, rfl, rfl⟩
  exact ⟨_, closing.updateRun (fun row => (keeps _ row).2.1) fun row => (keeps _ row).1,
    fun row => (keeps _ (f row)).2⟩

/-- A cancellation returns the run's integrations from attention. -/
theorem cancel_closing (s : Store) (run : Nat) (reason : Text) (now : Time) :
    ∃ set, Closing s (cancel s run reason now) run set ∧ Cancels set := by
  let stop (row : RunRow) : RunRow :=
    { row with status := .cancelled, pausedBy := none, stopReason := row.stopReason.or (some reason) }
  let ungated := ({ s with work := cancelWork s run } : Store).updateGates
    (fun gate => gate.runId = some run && gate.status = .pending) GateRow.invalidate
  have freed : Closing s ungated run fun row => row :=
    ⟨⟨.of_same rfl, fun _ => rfl, .inr rfl⟩, (invalidate_closes _).of_gates rfl⟩
  have stopped : Closing s (ungated.updateRun run stop) run stop :=
    freed.updateRun (fun _ => rfl) fun _ => rfl
  obtain ⟨set, finished, keeps⟩ := finishCancellation_closing stopped now
  refine ⟨set, finished, ?_, ?_, ?_, ?_⟩
  · exact fun row => (keeps row).1
  · exact fun row => (keeps row).2.1
  · exact fun row => (keeps row).2.2.1
  · exact fun row => (keeps row).2.2.2

/-- Sent back for changes, a run plans again; its sequence is left to the caller. -/
theorem requestRunChanges_closing {reason : Text} {taskIds : List Nat} {gateId : Option Nat}
    {placeholder : Placeholder}
    (changed : requestRunChanges s run reason taskIds gateId placeholder = some t) :
    ∃ set, Closing s t run set ∧ ∀ row, (set row).id = row.id ∧ (set row).status = .planning ∧
      (set row).controlSequence = row.controlSequence := by
  obtain ⟨_, _, _, _, changed⟩ := of_bind₂ changed
  obtain ⟨_, _, row, _, changed⟩ := of_bind₂ changed
  obtain ⟨⟨revision, planned⟩, inserted, changed⟩ := of_bind changed
  obtain ⟨revisions, rfl⟩ := insertPlaceholder_some inserted
  cases changed
  exact ⟨_, Closing.updateRun ⟨Leaves.amends ⟨rfl, rfl⟩, (invalidate_closes _).of_gates rfl⟩
    (fun _ => rfl) fun _ => rfl, fun _ => ⟨rfl, rfl, rfl⟩⟩

/-- What a decision does to the row of its run. -/
inductive DecisionEffect (s : Store) (gate : GateRow) (decision : Text) (set : RunRow → RunRow) :
    Prop where
  | ofTask (task : gate.kind.ofRun = false) (same : ∀ row, set row = row)
  | planApproved (plan : gate.kind = .plan) (approve : decision = gateApprove)
      (sets : ∀ row, set row = if row.status = .awaitingApproval then row.approve else row)
  | stageApproved (stage : gate.kind = .stage) (approve : decision = gateApprove)
      (sets : ∀ row, set row =
        if row.status = .paused && row.pausedBy = some .runtime && row.attentionReason.isNone &&
          !s.gated (gate.runId.getD 0) then row.approve else row)
  | rejected (ofRun : gate.kind.ofRun = true) (reject : decision = gateReject) (cancels : Cancels set)
  | changes (ofRun : gate.kind.ofRun = true) (change : decision = gateRequestChanges)
      (sets : ∀ row, (set row).status = .planning ∧
        (set row).controlSequence = row.controlSequence + 1)

variable {request : ResolveGate} {reason : Option Text}

theorem decideRun_closing {decision : Text} (ofRun : gate.kind.ofRun = true)
    (decided : decideRun s (gate.runId.getD 0) gate request decision reason = some t) :
    ∃ set, Closing s t (gate.runId.getD 0) set ∧ DecisionEffect s gate decision set := by
  rw [decideRun] at decided
  split at decided
  · rename_i approve
    split at decided
    · rename_i plan
      cases decided
      refine ⟨_, updateRun_closing (fun row => ?_) fun row => ?_, .planApproved plan approve fun _ => rfl⟩
      all_goals
        split
        · rfl
        · rfl
    · rename_i other
      have stage : gate.kind = .stage := by
        cases kind : gate.kind with
        | decision | stall => rw [kind] at ofRun; cases ofRun
        | plan => exact absurd kind other
        | stage => rfl
      cases decided
      refine ⟨_, updateRun_closing (fun row => ?_) fun row => ?_, .stageApproved stage approve fun _ => rfl⟩
      all_goals
        split
        · rfl
        · rfl
  · split at decided
    · rename_i reject
      cases decided
      obtain ⟨set, closing, cancels⟩ := cancel_closing s (gate.runId.getD 0) _ request.now
      exact ⟨set, closing, .rejected ofRun reject cancels⟩
    · obtain ⟨change, decided⟩ := of_when decided
      obtain ⟨changed, requested, rfl⟩ := of_map decided
      obtain ⟨set, closing, sets⟩ := requestRunChanges_closing requested
      refine ⟨_, closing.updateRun (fun _ => rfl) fun _ => rfl, .changes ofRun change ?_⟩
      exact fun row => ⟨(sets row).2.1, congrArg (· + 1) (sets row).2.2⟩

theorem applyDecision_closing {decision : Text}
    (applied : applyDecision s gate request decision reason = some t) :
    ∃ set, Closing s t (gate.runId.getD 0) set ∧ DecisionEffect s gate decision set := by
  rw [applyDecision] at applied
  split at applied
  · rename_i kind
    cases applied
    exact ⟨_, ⟨Leaves.amends ⟨rfl, rfl⟩, closesGates_of_same rfl⟩,
      .ofTask (by rw [kind]; rfl) fun _ => rfl⟩
  · rename_i kind
    cases applied
    exact ⟨_, ⟨Leaves.amends ⟨rfl, rfl⟩, closesGates_of_same rfl⟩,
      .ofTask (by rw [kind]; rfl) fun _ => rfl⟩
  · rename_i plan
    exact decideRun_closing (by rw [plan]; rfl) applied
  · rename_i stage
    exact decideRun_closing (by rw [stage]; rfl) applied

theorem decideGate_closing {digests : Digests}
    (decided : decideGate digests s request gate = some t) :
    ∃ reason resolved set, resolved = s.updateGates (fun row => row.id = gate.id && row.status = .pending)
        (GateRow.resolve (Cloud.trim request.decision) reason) ∧
      request.refused gate (Cloud.trim request.decision) = false ∧
      Closing s t (gate.runId.getD 0) set ∧ ClosesGates resolved t ∧
      DecisionEffect resolved gate (Cloud.trim request.decision) set := by
  obtain ⟨_, accepted, _, _, decided⟩ := of_bind₂ decided
  obtain ⟨_, _, applied, application, decided⟩ := of_bind₂ decided
  obtain ⟨set, ⟨⟨rewrites, sha, integrations⟩, closes⟩, effect⟩ := applyDecision_closing application
  obtain rfl := commit_some decided
  refine ⟨_, _, set, rfl, by simpa using accepted, ⟨⟨rewrites, sha, integrations⟩, ?_⟩,
    closes.of_gates rfl, effect⟩
  exact (updateGates_closes (resolve_keeps _ _) fun _ pending => by cases pending).trans
    (closes.of_gates rfl)

end Rewriting

/-! ## What a step can do to a run -/

/-- A request that decides a plan or stage gate of the run, and is no repetition. -/
structure Decides (m : RunMachine) (request : ResolveGate) (decision : Text) (gate : GateRow)
    (run : Nat) : Prop where
  found : lookup GateRow.id request.gateId m.store.gates = some gate
  ofRun : gate.kind.ofRun = true
  run : gate.runId.getD 0 = run
  decision : Cloud.trim request.decision = decision
  due : gate.due = true
  fresh : m.store.receipt? request.requestId = none

/-- The columns that operations on runs guard. -/
structure Columns (new : RunRow) (status : RunStatus) (planRevision : Option Nat)
    (controlSequence : Nat) : Prop where
  status : new.status = status
  planRevision : new.planRevision = planRevision
  controlSequence : new.controlSequence = controlSequence

/-- The status a stored plan leaves the run in. -/
def Store.proposedStatus (store : Store) (run : RunRow) : RunStatus :=
  if store.needsGate run then .awaitingApproval else if run.status = .paused then .paused else .running

/-- The row that a stored plan leaves of its run. -/
def Store.plannedRow (store : Store) (run : RunRow) (request : ProposePlan) (after : RunRow) : RunRow :=
  { after with
    planRevision := some (run.planRevision.getD 0 + 1)
    status := store.proposedStatus run
    stallPolicy := request.stallPolicy.getD run.stallPolicy
    maxConcurrent := request.plan.maxConcurrent }

inductive RunChange (m : RunMachine) (old new : RunRow) : RunEvent → Prop where
  | unchanged {event : RunEvent} :
      Columns new old.status old.planRevision old.controlSequence → RunChange m old new event
  | proposed {request : ProposePlan} (target : request.runId = old.id)
      (proposable : old.proposable = true) (fresh : m.store.proposal? request = none) :
      Columns new (m.store.proposedStatus old) (some (old.planRevision.getD 0 + 1))
        old.controlSequence → RunChange m old new (.propose request)
  | planApproved {request : ResolveGate} {gate : GateRow}
      (decides : Decides m request gateApprove gate old.id) (plan : gate.kind = .plan)
      (awaiting : old.status = .awaitingApproval) :
      Columns new .running old.planRevision (old.controlSequence + 1) →
      RunChange m old new (.resolve request)
  /-- `ungated` is about the gates once this one is resolved. -/
  | stageApproved {request : ResolveGate} {gate : GateRow} {reason : Option Text}
      (decides : Decides m request gateApprove gate old.id) (stage : gate.kind = .stage)
      (paused : old.status = .paused)
      (ungated : (m.store.updateGates (fun row => row.id = gate.id && row.status = .pending)
        (GateRow.resolve gateApprove reason)).gated old.id = false) :
      Columns new .running old.planRevision (old.controlSequence + 1) →
      RunChange m old new (.resolve request)
  | rejected {request : ResolveGate} {gate : GateRow}
      (decides : Decides m request gateReject gate old.id) :
      Columns new .cancelled old.planRevision old.controlSequence →
      RunChange m old new (.resolve request)
  | sentBack {request : ResolveGate} {gate : GateRow}
      (decides : Decides m request gateRequestChanges gate old.id) {planRevision : Option Nat} :
      Columns new .planning planRevision (old.controlSequence + 1) →
      RunChange m old new (.resolve request)
  | paused {request : RunControl} (running : old.status = .running) :
      Columns new .paused old.planRevision (old.controlSequence + 1) →
      RunChange m old new (.control request)
  | resumed {request : RunControl} (resume : request.action = .resume)
      (target : request.runId = old.id) (paused : old.status = .paused)
      (ungated : m.store.gated old.id = false) :
      Columns new .running old.planRevision (old.controlSequence + 1) →
      RunChange m old new (.control request)
  | cancelled {request : RunControl} (unfinished : old.status.finished = false) :
      Columns new .cancelled old.planRevision (old.controlSequence + 1) →
      RunChange m old new (.control request)
  | replanned {request : RunControl} (unfinished : old.status.finished = false)
      {planRevision : Option Nat} :
      Columns new .planning planRevision (old.controlSequence + 1) →
      RunChange m old new (.control request)
  | retried {request : RetryCancellation} (cancelled : old.status = .cancelled) :
      Columns new .cancelled old.planRevision (old.controlSequence + 1) →
      RunChange m old new (.retry request)
  /-- Stage gates became due, or the scheduler asks for attention. -/
  | pausedByRuntime {event : RunEvent} (running : old.status = .running) :
      Columns new .paused old.planRevision (old.controlSequence + 1) → RunChange m old new event
  | completed {run revision sequence : Nat} {now : Time} (running : old.status = .running) :
      Columns new .completed old.planRevision old.controlSequence →
      RunChange m old new (.complete run revision sequence now)
  | finished {run : Nat} {status : RunStatus} {now : Time} (unfinished : old.status.finished = false) :
      Columns new status old.planRevision old.controlSequence →
      RunChange m old new (.finish run status now)
  | stopped {request : Nat} {reason : Text} {now : Time} (checked : m.stops request = some old.id) :
      Columns new .cancelled old.planRevision old.controlSequence →
      RunChange m old new (.stop request reason now)

/-- What an event does to the runs that exist. -/
def Changes (m : RunMachine) (t : Store) (event : RunEvent) : Prop :=
  ∀ old, m.store.run? old.id = some old →
    ∃ new, t.run? old.id = some new ∧ RunChange m old new event

/-- What an event does to the runs that exist, and to integrations. -/
structure Acts (m : RunMachine) (t : Store) (event : RunEvent) : Prop where
  changes : Changes m t event
  touched : Touched m.store t

/-- The events that can open gates. -/
def RunEvent.opensGates : RunEvent → Bool
  | .propose _ | .openDue _ | .evidenceChanged .. => true
  | _ => false

/-- What an event does, and that it opens no gate unless it is one that can. -/
structure Does (m : RunMachine) (t : Store) (event : RunEvent) : Prop extends Acts m t event where
  closes : event.opensGates = false → ClosesGates m.store t

namespace RunMachine

variable {digests : Digests} {m : RunMachine} {t : Store} {old : RunRow} {run : Nat}
  {set : RunRow → RunRow} {event : RunEvent}

/-- A step that rewrites one run leaves every other alone. -/
theorem acts_of_amends (amends : Amends m.store t run set)
    (target : ∀ old, m.store.run? run = some old → RunChange m old (set old) event) :
    Acts m t event := by
  refine ⟨fun old found => ?_, amends.touched⟩
  have now := amends.rewrites old.id
  by_cases here : old.id = run
  · rw [if_pos here, found] at now
    exact ⟨set old, now, target old (here ▸ found)⟩
  · rw [if_neg here, found] at now
    exact ⟨old, now, .unchanged ⟨rfl, rfl, rfl⟩⟩

theorem acts_of_leaves (leaves : Leaves m.store t) : Acts m t event := by
  have amends : Amends m.store t 0 fun row => row := leaves.amends
  exact acts_of_amends amends fun _ _ => .unchanged ⟨rfl, rfl, rfl⟩

theorem does_of_closing (closing : Closing m.store t run set)
    (target : ∀ old, m.store.run? run = some old → RunChange m old (set old) event) :
    Does m t event :=
  ⟨acts_of_amends closing.toAmends target, fun _ => closing.closes⟩

theorem does_nothing : Does m m.store event := ⟨acts_of_leaves ⟨rfl, rfl⟩, fun _ => .refl _⟩

/-- New runs are added behind the old ones. -/
theorem does_append (added : List RunRow) (receipts : List ReceiptRow) :
    Does m { m.store with runs := m.store.runs ++ added, receipts } event where
  changes old found := ⟨old, lookup_append found added, .unchanged ⟨rfl, rfl, rfl⟩⟩
  touched := .spared ⟨fun _ row found => ⟨row, lookup_append found added, rfl⟩, rfl⟩
  closes _ := closesGates_of_same rfl

variable {s : Store}

theorem createPlannedRun_some {id workspaceId maxConcurrent : Nat} {approvalRequired : Bool}
    {stallPolicy : Text}
    (done : createPlannedRun s id workspaceId approvalRequired stallPolicy maxConcurrent = some t) :
    ∃ added receipts, t = { s with runs := s.runs ++ added, receipts } := by
  obtain ⟨_, _, _, _, done⟩ := of_bind₂ done
  cases done
  exact ⟨_, _, rfl⟩

/-- A repeated request adds no run. -/
theorem createRun_some {request : CreateRun} {id : Nat} (done : createRun s request id = some t) :
    ∃ added receipts, t = { s with runs := s.runs ++ added, receipts } := by
  rw [createRun] at done
  split at done
  · split at done
    · cases done
      exact ⟨[], t.receipts, by rw [List.append_nil]⟩
    · cases done
  · obtain ⟨_, _, _, _, done⟩ := of_bind₂ done
    cases done
    exact ⟨_, _, rfl⟩

variable {request : ProposePlan}

/-- A proposal answers its receipt or stores its plan. -/
theorem proposeRunPlan_some (done : proposeRunPlan s request = some t) :
    t = s ∧ (s.proposal? request).isSome ∨
      ∃ row, s.proposal? request = none ∧ s.run? request.runId = some row ∧ row.proposable = true ∧
        storePlan s row request = some t := by
  rw [proposeRunPlan] at done
  split at done
  · rename_i known
    split at done
    · exact .inl ⟨(Option.some.inj done).symm, by rw [known]; rfl⟩
    · cases done
  · rename_i fresh
    obtain ⟨_, _, row, loaded, done⟩ := of_bind₂ done
    obtain ⟨_, proposable, done⟩ := of_bind done
    exact .inr ⟨row, fresh, loaded, by simpa using proposable, done⟩

variable {row : RunRow}

/-- The parts of a stored plan: the old plan is superseded, the new one is materialized, and its
gate is opened if it needs one. -/
theorem storePlan_some (done : storePlan s row request = some t) :
    ∃ inserted materialized opened,
      Leaves s inserted ∧ inserted.gates = (supersedeUnstartedPlan s row.id).gates ∧
      materialize inserted row (row.planRevision.getD 0 + 1) request.plan request.newTaskId
        request.newGateId = some materialized ∧
      openNeededGate materialized (s.needsGate row) row.id (row.planRevision.getD 0 + 1) request =
        some opened ∧
      t = opened.updateRun row.id (s.plannedRow row request) := by
  obtain ⟨_, _, inserted, revision, done⟩ := of_bind₂ done
  obtain ⟨materialized, gates, opened, gate, done⟩ := of_bind₂ done
  have superseded := insertRevision_some revision
  have leaves : Leaves s inserted := by
    rw [superseded]
    exact ⟨rfl, rfl⟩
  exact ⟨inserted, materialized, opened, leaves, by rw [superseded], gates, gate, commit_some done⟩

theorem storePlan_amends (done : storePlan s row request = some t) :
    Amends s t row.id (s.plannedRow row request) := by
  obtain ⟨inserted, materialized, opened, superseded, -, gates, gate, rfl⟩ := storePlan_some done
  have leaves : Leaves s opened :=
    superseded.trans ((materialize_leaves gates).trans (openNeededGate_leaves gate))
  exact leaves.amends.updateRun (fun _ => rfl) fun _ => rfl

theorem propose_acts (done : proposeRunPlan m.store request = some t) :
    Acts m t (.propose request) := by
  obtain ⟨rfl, -⟩ | ⟨row, fresh, loaded, proposable, done⟩ := proposeRunPlan_some done
  · exact acts_of_leaves ⟨rfl, rfl⟩
  · have id : row.id = request.runId := (lookup_some loaded).2
    refine acts_of_amends (storePlan_amends done) fun old found => ?_
    obtain rfl : row = old := by
      rw [id, loaded] at found
      exact Option.some.inj found
    exact .proposed id.symm proposable fresh ⟨rfl, rfl, rfl⟩

variable {request : ResolveGate}

/-- A resolution answers its receipt or decides its gate. -/
theorem resolveRunGate_some (done : resolveRunGate digests s request = some t) :
    t = s ∨ ∃ gate, s.receipt? request.requestId = none ∧
      lookup GateRow.id request.gateId s.gates = some gate ∧
      decideGate digests s request gate = some t := by
  obtain ⟨_, _, done⟩ := of_bind done
  split at done
  · split at done
    · exact .inl (Option.some.inj done).symm
    · cases done
  · rename_i fresh
    obtain ⟨gate, loaded, done⟩ := of_bind done
    exact .inr ⟨gate, fresh, loaded, done⟩

theorem due_of_accepted {decision : Text}
    (accepted : request.refused gate decision = false) : gate.due = true := by
  rw [ResolveGate.refused] at accepted
  simp only [Bool.or_eq_false_iff] at accepted
  simpa using accepted.1.1.1.1.2

theorem resolve_does (done : resolveRunGate digests m.store request = some t) :
    Does m t (.resolve request) := by
  obtain rfl | ⟨gate, fresh, loaded, done⟩ := resolveRunGate_some done
  · exact does_nothing
  obtain ⟨reason, resolved, set, rfl, accepted, closing, -, effect⟩ := decideGate_closing done
  refine does_of_closing closing fun old found => ?_
  have here : old.id = gate.runId.getD 0 := (lookup_some found).2
  have decides {decision : Text} (ofRun : gate.kind.ofRun = true)
      (same : Cloud.trim request.decision = decision) : Decides m request decision gate old.id :=
    ⟨loaded, ofRun, here.symm, same, due_of_accepted accepted, fresh⟩
  cases effect with
  | ofTask _ same =>
    rw [same]
    exact .unchanged ⟨rfl, rfl, rfl⟩
  | planApproved plan approve sets =>
    rw [sets]
    split
    · rename_i awaiting
      exact .planApproved (decides (by rw [plan]; rfl) approve) plan awaiting ⟨rfl, rfl, rfl⟩
    · exact .unchanged ⟨rfl, rfl, rfl⟩
  | stageApproved stage approve sets =>
    rw [sets]
    split
    · rename_i ready
      simp only [Bool.and_eq_true, decide_eq_true_eq, Bool.not_eq_true'] at ready
      have ungated : (m.store.updateGates (fun row => row.id = gate.id && row.status = .pending)
          (GateRow.resolve gateApprove reason)).gated old.id = false := by
        rw [← approve, here]
        exact ready.2
      exact .stageApproved (decides (by rw [stage]; rfl) approve) stage ready.1.1.1 ungated
        ⟨rfl, rfl, rfl⟩
    · exact .unchanged ⟨rfl, rfl, rfl⟩
  | rejected ofRun reject cancels =>
    exact .rejected (decides ofRun reject)
      ⟨cancels.status old, cancels.planRevision old, cancels.controlSequence old⟩
  | changes ofRun change sets =>
    exact .sentBack (decides ofRun change) ⟨(sets old).1, rfl, (sets old).2⟩

/-- What a sequence-checked command leaves behind: its effect, and the next sequence. -/
theorem runCommand_some {requestId digest : Text} {expectedSequence : Int}
    {command : RunStatus → Option Store}
    (done : runCommand s requestId digest run expectedSequence command = some t) :
    t = s ∧ (s.receipt? requestId).isSome ∨
      ∃ row commanded, s.receipt? requestId = none ∧ s.run? run = some row ∧
        (row.controlSequence : Int) = expectedSequence ∧ command row.status = some commanded ∧
        t = { commanded.updateRun run fun after =>
            { after with controlSequence := row.controlSequence + 1 } with
          receipts := commanded.receipts ++ [⟨requestId, digest, run⟩] } := by
  obtain ⟨_, _, done⟩ := of_bind done
  split at done
  · rename_i receipt known
    split at done
    · cases done
      exact .inl ⟨rfl, by rw [known]; rfl⟩
    · cases done
  · rename_i unknown
    obtain ⟨row, loaded, _, expected, done⟩ := of_bind₂ done
    obtain ⟨commanded, command, done⟩ := of_bind done
    exact .inr ⟨row, commanded, unknown, loaded, by simpa using expected, command, commit_some done⟩

/-- A command rewrites the run it names, and the sequence is counted on top. -/
theorem does_command {requestId digest : Text} {commanded : Store}
    (loaded : m.store.run? run = some row) (closing : Closing m.store commanded run set)
    (target : ∀ new, Columns new (set row).status (set row).planRevision (row.controlSequence + 1) →
      RunChange m row new event) :
    Does m { commanded.updateRun run fun after =>
        { after with controlSequence := row.controlSequence + 1 } with
      receipts := commanded.receipts ++ [⟨requestId, digest, run⟩] } event := by
  let count (after : RunRow) : RunRow := { after with controlSequence := row.controlSequence + 1 }
  have counts : Closing m.store (commanded.updateRun run count) run fun row => count (set row) :=
    closing.updateRun (fun _ => rfl) fun _ => rfl
  refine does_of_closing ⟨⟨counts.rewrites, counts.sha, counts.integrations⟩,
    counts.closes.of_gates rfl⟩ fun old found => ?_
  obtain rfl : row = old := Option.mem_unique loaded found
  exact target _ ⟨rfl, rfl, rfl⟩

theorem control_does {request : RunControl} (done : controlRun m.store request = some t) :
    Does m t (.control request) := by
  obtain ⟨rfl, _⟩ | ⟨row, commanded, _, loaded, _, command, rfl⟩ := runCommand_some done
  · exact does_nothing
  rw [Orchestration.control] at command
  split at command
  · obtain ⟨running, command⟩ := of_when command
    cases command
    exact does_command loaded (updateRun_closing (fun _ => rfl) fun _ => rfl) fun _ => .paused running
  · rename_i resume
    obtain ⟨ready, command⟩ := of_when command
    simp only [Bool.and_eq_true, decide_eq_true_eq, Bool.not_eq_true'] at ready
    have here : row.id = request.runId := (lookup_some loaded).2
    cases command
    exact does_command loaded (updateRun_closing (fun _ => rfl) fun _ => rfl) fun _ =>
      .resumed resume here.symm ready.1 (here ▸ ready.2)
  · obtain ⟨unfinished, command⟩ := of_unless command
    cases command
    obtain ⟨set, closing, cancels⟩ := cancel_closing m.store request.runId
      ((trimmedReason request.reason).getD "Cancelled.".toList) request.now
    refine does_command loaded closing fun new => ?_
    rw [cancels.status, cancels.planRevision]
    exact .cancelled (Bool.eq_false_iff.mpr unfinished)
  · obtain ⟨unfinished, command⟩ := of_unless command
    obtain ⟨reason, _, changed⟩ := of_bind command
    obtain ⟨set, closing, sets⟩ := requestRunChanges_closing changed
    refine does_command loaded closing fun new => ?_
    rw [(sets row).2.1]
    exact .replanned (Bool.eq_false_iff.mpr unfinished)

theorem retry_does {request : RetryCancellation} (done : retryRunCancellation m.store request = some t) :
    Does m t (.retry request) := by
  obtain ⟨rfl, _⟩ | ⟨row, commanded, _, loaded, _, command, rfl⟩ := runCommand_some done
  · exact does_nothing
  obtain ⟨_, cancelled, _, _, command⟩ := of_bind₂ command
  cases command
  obtain ⟨set, closing, cancels⟩ :=
    cancel_closing m.store request.runId "Run cancelled.".toList request.now
  refine does_command loaded closing fun new => ?_
  rw [cancels.status, cancels.planRevision]
  exact .retried (by simpa using cancelled)

theorem openDue_acts (done : openDueStageGates digests m.store run = some t) :
    Acts m t (.openDue run) := by
  obtain ⟨⟨opened, bound⟩, inner, done⟩ := of_bind done
  have leaves := openGates_leaves inner
  cases done
  cases opened with
  | false => exact acts_of_leaves leaves
  | true =>
    refine acts_of_amends (leaves.amends.updateRun (fun row => ?_) fun row => ?_) fun _ _ => ?_
    · split
      · rfl
      · rfl
    · split
      · rfl
      · rfl
    · split
      · rename_i running
        exact .pausedByRuntime running ⟨rfl, rfl, rfl⟩
      · exact .unchanged ⟨rfl, rfl, rfl⟩

theorem attention_does {revision sequence : Nat} {reason : Text} :
    Does m (pauseForAttention m.store run revision sequence reason)
      (.attention run revision sequence reason) := by
  refine does_of_closing (updateRun_closing (fun row => ?_) fun row => ?_) fun _ _ => ?_
  · split
    · rfl
    · rfl
  · split
    · rfl
    · rfl
  · split
    · rename_i current
      simp only [Bool.and_eq_true, decide_eq_true_eq] at current
      exact .pausedByRuntime current.2 ⟨rfl, rfl, rfl⟩
    · exact .unchanged ⟨rfl, rfl, rfl⟩

theorem complete_does {revision sequence : Nat} {now : Time}
    (done : completeWorkflowExecution digests m.store run revision sequence now = some t) :
    Does m t (.complete run revision sequence now) := by
  obtain ⟨row, loaded, done⟩ := of_bind done
  split at done
  · rename_i current
    simp only [Bool.and_eq_true, decide_eq_true_eq] at current
    obtain ⟨plan, _, _, _, done⟩ := of_bind₂ done
    obtain ⟨_, _, _, _, done⟩ := of_bind₂ done
    obtain ⟨_, _, done⟩ := of_bind done
    cases done
    refine does_of_closing (updateRun_closing (fun _ => rfl) fun _ => rfl) fun old found => ?_
    obtain rfl : row = old := Option.mem_unique loaded found
    exact .completed current.1.2 ⟨rfl, rfl, rfl⟩
  · cases done
    exact does_nothing

variable {m' : RunMachine}

theorem step_does (other : ∀ work, event ≠ .work work) (stepped : m.step digests event = some m') :
    Does m m'.store event := by
  cases event with
  | createPlanned id workspaceId approvalRequired stallPolicy maxConcurrent =>
    obtain ⟨store, done, rfl⟩ := of_map stepped
    obtain ⟨added, receipts, rfl⟩ := createPlannedRun_some done
    exact does_append added receipts
  | create request id =>
    obtain ⟨store, done, rfl⟩ := of_map stepped
    obtain ⟨added, receipts, rfl⟩ := createRun_some done
    exact does_append added receipts
  | propose request =>
    obtain ⟨store, done, rfl⟩ := of_map stepped
    exact ⟨propose_acts done, fun opens => by cases opens⟩
  | resolve request =>
    obtain ⟨store, done, rfl⟩ := of_map stepped
    exact resolve_does done
  | control request =>
    obtain ⟨store, done, rfl⟩ := of_map stepped
    exact control_does done
  | retry request =>
    obtain ⟨store, done, rfl⟩ := of_map stepped
    exact retry_does done
  | openDue run =>
    obtain ⟨store, done, rfl⟩ := of_map stepped
    exact ⟨openDue_acts done, fun opens => by cases opens⟩
  | attention run revision sequence reason =>
    cases stepped
    exact attention_does
  | complete run revision sequence now =>
    obtain ⟨store, done, rfl⟩ := of_map stepped
    exact complete_does done
  | finish run status now =>
    cases stepped
    refine does_of_closing (updateRun_closing (fun row => ?_) fun row => ?_) fun _ _ => ?_
    · split
      · rfl
      · rfl
    · split
      · rfl
      · rfl
    · split
      · exact .unchanged ⟨rfl, rfl, rfl⟩
      · rename_i unfinished
        exact .finished (Bool.eq_false_iff.mpr unfinished) ⟨rfl, rfl, rfl⟩
  | checkStop request run =>
    rw [step] at stepped
    split at stepped
    · cases stepped
      exact does_nothing
    · cases stepped
  | stop request reason now =>
    obtain ⟨run, checked, rfl⟩ := of_map stepped
    refine does_of_closing (updateRun_closing (fun _ => rfl) fun _ => rfl) fun old found => ?_
    rw [← (lookup_some found).2] at checked
    exact .stopped checked ⟨rfl, rfl, rfl⟩
  | settleCancellation run now =>
    cases stepped
    have same : Closing m.store m.store run fun row => row := ⟨Leaves.amends ⟨rfl, rfl⟩, .refl _⟩
    obtain ⟨set, closing, keeps⟩ := finishCancellation_closing same now
    refine does_of_closing closing fun old _ => ?_
    obtain ⟨_, status, revision, sequence⟩ := keeps old
    exact .unchanged ⟨status, revision, sequence⟩
  | work work => exact absurd rfl (other work)
  | evidenceChanged run newId =>
    obtain ⟨store, done, rfl⟩ := of_map stepped
    have made := insertGates_leaves done
    exact ⟨acts_of_leaves ⟨made.runs, made.integrations⟩, fun opens => by cases opens⟩

/-- **What a step does to the runs.**  A run that exists stays, and its row changes as its writers
allow. -/
theorem step_changes (stepped : m.step digests event = some m') : Changes m m'.store event := by
  by_cases works : ∃ work, event = .work work
  · obtain ⟨work, rfl⟩ := works
    cases stepped
    exact fun old found => ⟨old, found, .unchanged ⟨rfl, rfl, rfl⟩⟩
  · exact (step_does (fun work is => works ⟨work, is⟩) stepped).changes

/-- What an operation on runs does to integrations. -/
theorem step_touched
    (fixed : ∀ work, event = .work work → work.integrations = m.store.work.integrations)
    (stepped : m.step digests event = some m') : Touched m.store m'.store := by
  by_cases works : ∃ work, event = .work work
  · obtain ⟨work, rfl⟩ := works
    cases stepped
    exact .spared ⟨fun _ row found => ⟨row, found, rfl⟩, fixed work rfl⟩
  · exact (step_does (fun work is => works ⟨work, is⟩) stepped).touched

/-! ## Finished runs -/

/-- The writers that check no status meet a run that they leave as it is, or that is unfinished. -/
def FindsUnfinished (m : RunMachine) : RunEvent → Prop
  | .resolve request =>
    ∀ decision gate row, Decides m request decision gate row.id → m.store.run? row.id = some row →
      (decision = gateRequestChanges → row.status.finished = false) ∧
      (decision = gateReject → row.status ≠ .completed ∧ row.status ≠ .failed)
  | .stop request _ _ =>
    ∀ row, m.stops request = some row.id → m.store.run? row.id = some row →
      row.status ≠ .completed ∧ row.status ≠ .failed
  | _ => True

theorem cancelled_of_finished {status : RunStatus} (finished : status.finished = true)
    (cancellable : status ≠ .completed ∧ status ≠ .failed) : status = .cancelled := by
  cases status with
  | completed => exact absurd rfl cancellable.1
  | failed => exact absurd rfl cancellable.2
  | cancelled => rfl
  | planning => cases finished
  | awaitingApproval => cases finished
  | running => cases finished
  | paused => cases finished

theorem not_proposable_of_finished (finished : old.status.finished = true) : old.proposable = false := by
  rw [RunRow.proposable]
  cases old.isolation with
  | shared => exact congrArg (!·) finished
  | isolated =>
    cases status : old.status with
    | planning | awaitingApproval => rw [status] at finished; cases finished
    | running => rfl
    | paused => rfl
    | completed => rfl
    | failed => rfl
    | cancelled => rfl

theorem step_keeps_finished (finds : m.FindsUnfinished event)
    (stepped : m.step digests event = some m') (found : m.store.run? old.id = some old)
    (finished : old.status.finished = true) :
    ∃ new, m'.store.run? old.id = some new ∧ new.status = old.status := by
  obtain ⟨new, later, change⟩ := step_changes stepped old found
  have unlike {status : RunStatus} (is : old.status = status) : status.finished = true := is ▸ finished
  refine ⟨new, later, ?_⟩
  cases change with
  | unchanged columns => exact columns.status
  | proposed _ proposable _ _ => rw [not_proposable_of_finished finished] at proposable; cases proposable
  | planApproved _ _ awaiting _ => cases unlike awaiting
  | stageApproved _ _ paused _ _ => cases unlike paused
  | rejected decides columns =>
    rw [columns.status, cancelled_of_finished finished ((finds _ _ old decides found).2 rfl)]
  | sentBack decides columns =>
    rw [(finds _ _ old decides found).1 rfl] at finished
    cases finished
  | paused running _ => cases unlike running
  | resumed _ _ paused _ _ => cases unlike paused
  | cancelled unfinished _ | replanned unfinished _ | finished unfinished _ =>
    rw [unfinished] at finished; cases finished
  | retried cancelled columns => rw [columns.status, cancelled]
  | pausedByRuntime running _ => cases unlike running
  | completed running _ => cases unlike running
  | stopped checked columns =>
    rw [columns.status, cancelled_of_finished finished (finds old checked found)]

/-- A decision that is carried out leaves the status it asks for. -/
theorem resolve_status {decision : Text} (done : resolveRunGate digests m.store request = some t)
    (decides : Decides m request decision gate old.id) (found : m.store.run? old.id = some old) :
    ∃ new, t.run? old.id = some new ∧ (decision = gateRequestChanges → new.status = .planning) ∧
      (decision = gateReject → new.status = .cancelled) := by
  obtain ⟨_, _, done⟩ := of_bind done
  rw [decides.fresh] at done
  obtain ⟨loaded, lookedUp, done⟩ := of_bind done
  obtain rfl : loaded = gate := Option.mem_unique lookedUp decides.found
  obtain ⟨reason, resolved, set, -, -, closing, -, effect⟩ := decideGate_closing done
  rw [decides.decision] at effect
  rw [decides.run] at closing
  refine ⟨set old, by rw [closing.rewrites old.id, if_pos rfl, found, map_some], ?_⟩
  cases effect with
  | ofTask task _ => rw [decides.ofRun] at task; cases task
  | planApproved _ approve _ | stageApproved _ approve _ =>
    rw [approve]
    exact ⟨fun other => absurd other (by decide), fun other => absurd other (by decide)⟩
  | rejected _ reject cancels =>
    rw [reject]
    exact ⟨fun other => absurd other (by decide), fun _ => cancels.status old⟩
  | changes _ change sets =>
    rw [change]
    exact ⟨fun _ => (sets old).1, fun other => absurd other (by decide)⟩

/-- A step that leaves every finished run alone has met the condition. -/
theorem findsUnfinished_of_keeps (stepped : m.step digests event = some m')
    (keeps : ∀ old, m.store.run? old.id = some old → old.status.finished = true → ∃ new, m'.store.run? old.id = some new ∧ new.status = old.status) :
    m.FindsUnfinished event := by
  cases event with
  | resolve request =>
    obtain ⟨store, done, rfl⟩ := of_map stepped
    intro decision gate row decides found
    obtain ⟨new, later, changes, reject⟩ := resolve_status done decides found
    have kept (finished : row.status.finished = true) : new.status = row.status := by
      obtain ⟨same, found', status⟩ := keeps row found finished
      rw [Option.mem_unique later found']
      exact status
    refine ⟨fun change => ?_, fun rejection => ⟨fun completed => ?_, fun failed => ?_⟩⟩
    · by_contra finished
      rw [Bool.not_eq_false] at finished
      rw [← kept finished, changes change] at finished
      cases finished
    · have status := kept (by rw [completed]; rfl)
      rw [reject rejection, completed] at status
      cases status
    · have status := kept (by rw [failed]; rfl)
      rw [reject rejection, failed] at status
      cases status
  | stop request reason now =>
    obtain ⟨run, checked, rfl⟩ := of_map stepped
    intro row checked' found
    obtain rfl : run = row.id := Option.mem_unique checked checked'
    have rewrites : Rewrites m.store (stopCoordinatorRun m.store row.id reason now) row.id fun row =>
        { row with status := .cancelled, completedAt := some now, stopReason := some reason } :=
      updateRun_rewrites fun _ => rfl
    have later := rewrites row.id
    rw [if_pos rfl, found] at later
    have kept (finished : row.status.finished = true) : .cancelled = row.status := by
      obtain ⟨same, found', status⟩ := keeps row found finished
      rw [← status, ← Option.mem_unique later found']
    refine ⟨fun completed => ?_, fun failed => ?_⟩
    · have status := kept (by rw [completed]; rfl)
      rw [completed] at status
      cases status
    · have status := kept (by rw [failed]; rfl)
      rw [failed] at status
      cases status
  | _ => trivial

/-- A run that is finished at some point of the history has the same status at every later one. -/
def FinishedStay (digests : Digests) (m : RunMachine) (events : List RunEvent) : Prop :=
  ∀ before between after, events = before ++ between ++ after →
    ∀ s t, Theory.run (step digests) m before = some s → Theory.run (step digests) s between = some t →
      ∀ old, s.store.run? old.id = some old → old.status.finished = true →
        ∃ new, t.store.run? old.id = some new ∧ new.status = old.status

/-- **Finished runs stay finished** in a history exactly when its gate decisions and its stops find
their runs unfinished. -/
theorem finished_stays {events : List RunEvent} {m' : RunMachine}
    (ran : Theory.run (step digests) m events = some m') :
    FinishedStay digests m events ↔ Guarded (step digests) FindsUnfinished m events := by
  constructor
  · intro stay
    refine guarded_of_steps ran fun before event after s t split ranBefore stepped => ?_
    refine findsUnfinished_of_keeps stepped fun old found finished => ?_
    have one : Theory.run (step digests) s [event] = some t := by
      rw [run_cons, stepped]
      rfl
    exact stay before [event] after (by rw [split, List.append_assoc, List.singleton_append]) s t
      ranBefore one old found finished
  · intro guarded before between after split s t ranBefore ranBetween old found finished
    rw [split, List.append_assoc] at guarded
    have later := (guarded.append ranBefore).2
    have inner := (later.append ranBetween).1
    refine run_invariant_of_guarded
      (fun m => ∃ new, m.store.run? old.id = some new ∧ new.status = old.status) ?_ between s t inner
      ⟨old, found, rfl⟩ ranBetween
    rintro m event m' ⟨row, present, same⟩ finds stepped
    have id : row.id = old.id := (lookup_some present).2
    obtain ⟨new, later, status⟩ :=
      step_keeps_finished finds stepped (id ▸ present) (same ▸ finished)
    exact ⟨new, id ▸ later, status.trans same⟩

/-! ### A run that comes back -/

/-- Digests that no check of these histories tells apart. -/
def plainDigests : Digests := ⟨fun _ => [], fun _ => []⟩

/-- An isolated run whose plan a person has to approve. -/
def guardedRun : CreateRun where
  requestId := "create".toList
  digest := []
  workspaceId := 1
  isolation := .isolated
  approvalRequired := true
  stallPolicy := "ask".toList
  maxConcurrent := 1
  coordinatorTabId := none
  sourceSha := some "source".toList

/-- One stage with one task, and the plan gate 7. -/
def firstPlan : ProposePlan where
  runId := 1
  requestId := none
  requestDigest := []
  stallPolicy := none
  plan := ⟨[⟨"build".toList, "Build".toList, [], false⟩], [⟨"task".toList, "build".toList, [], none⟩],
    "plan".toList, 1⟩
  generatedRequestId := "proposal".toList
  newTaskId := fun _ => 5
  newGateId := fun _ => 6
  planGateId := 7

def sendPlanBack : ResolveGate where
  requestId := "resolve".toList
  digest := []
  gateId := 7
  decision := gateRequestChanges
  reason := some "another approach".toList
  taskIds := []
  expectedEvidenceDigest := some "plan".toList
  participant := false
  placeholder := ⟨"placeholder".toList, []⟩
  now := 3

/-- The run is stopped while its plan gate is open. -/
def stoppedAtGate : List RunEvent :=
  [.create guardedRun 1, .propose firstPlan, .checkStop 0 1, .stop 0 "done".toList 2]

def cancelRun : RunControl where
  requestId := "cancel".toList
  digest := []
  runId := 1
  expectedSequence := 0
  action := .cancel
  reason := none
  taskIds := []
  placeholder := ⟨"unused".toList, []⟩
  now := 2

/-- A history that meets the condition: a person cancels the run, which closes its gate, and the
decision on that gate is refused. -/
theorem finished_stays_cancelled :
    ∃ m, Theory.run (step plainDigests) empty
        [.create guardedRun 1, .propose firstPlan, .control cancelRun] = some m ∧
      m.step plainDigests (.resolve sendPlanBack) = none ∧
      FinishedStay plainDigests empty [.create guardedRun 1, .propose firstPlan, .control cancelRun] := by
  have runs : (Theory.run (step plainDigests) empty
      [.create guardedRun 1, .propose firstPlan, .control cancelRun]).map
        (fun m => (m.step plainDigests (.resolve sendPlanBack)).isNone) = some true := by
    decide +kernel
  obtain ⟨m, ran, refused⟩ := of_map runs
  refine ⟨m, ran, Option.isNone_iff_eq_none.mp refused, (finished_stays ran).mpr ?_⟩
  exact ⟨trivial, fun _ _ => ⟨trivial, fun _ _ => ⟨trivial, fun _ _ => trivial⟩⟩⟩

/-- **A stopped run plans again**: the stop leaves the plan gate open, and sending the plan back
takes the cancelled run to planning. -/
theorem stopped_run_replanned :
    (Theory.run (step plainDigests) empty (stoppedAtGate ++ [.resolve sendPlanBack])).isSome ∧
      ¬ FinishedStay plainDigests empty (stoppedAtGate ++ [.resolve sendPlanBack]) := by
  have runs : ((Theory.run (step plainDigests) empty stoppedAtGate).bind fun s =>
      (Theory.run (step plainDigests) s [.resolve sendPlanBack]).bind fun t =>
        (s.store.run? 1).bind fun old => (t.store.run? 1).map fun new =>
          decide (old.id = 1 ∧ old.status = .cancelled ∧ new.status = .planning)) = some true := by
    decide +kernel
  obtain ⟨s, ranBefore, t, ranLast, runs⟩ := of_bind₂ runs
  obtain ⟨old, found, runs⟩ := of_bind runs
  obtain ⟨new, later, statuses⟩ := of_map runs
  obtain ⟨id, cancelled, planning⟩ := of_decide_eq_true statuses
  refine ⟨by rfl, fun stay => ?_⟩
  obtain ⟨kept, found', same⟩ := stay stoppedAtGate [.resolve sendPlanBack] []
    (List.append_nil _).symm s t ranBefore ranLast old (id ▸ found) (by rw [cancelled]; rfl)
  rw [id, later] at found'
  rw [← Option.some.inj found', planning, cancelled] at same
  cases same

end RunMachine

end Alera.Orchestration
