/-
# Alera.Orchestration.RunGates -- a run waits at its open gates

A gate of a run is open while it is pending with evidence bound to it.  A plan gate is
bound when it is made; a stage gate waits unbound until `open_due_stage_gates` finds
its evidence, and then the run is paused in the same transaction.

The rules that every operation keeps (`GateRules`) are: gate ids are unique, gates name
runs that exist, plan gates are bound, a running run has no open gate, and a run that
awaits approval has one at most.  The last is what lets a plan approval start the run:
the gate it closes was the only open one.

Most operations close gates at most (`ClosesGates`); proposals replace the gates of
their run, and `open_due_stage_gates` and changed evidence are the two others.
`gated_run_waits` is the result over whole histories.
-/
import Alera.Orchestration.RunLifecycle

namespace Alera.Orchestration

open Theory List Tables
open Option (isSome_iff_exists)

set_option autoImplicit false

/-- Whether the trigger `runDispatchRequiresRunning` aborts a new dispatch of the run. -/
def Store.dispatchAborted (store : Store) (run : Nat) : Bool :=
  store.runs.any fun row => row.id = run && row.status ≠ .running

/-! ## The gate table -/

structure GateTable (s : Store) : Prop where
  unique : (s.gates.map GateRow.id).Nodup
  named : ∀ gate ∈ s.gates, ∀ run, gate.runId = some run → (s.run? run).isSome
  ofRun : ∀ gate ∈ s.gates, gate.kind.ofRun = true → gate.runId.isSome
  planBound : ∀ gate ∈ s.gates, gate.kind = .plan → gate.evidenceDigest.isSome

theorem bindEvidence_keeps (digest : Text) (sha : Option Text) :
    KeepsGate (GateRow.bindEvidence digest sha) :=
  ⟨fun _ => rfl, fun _ => rfl, fun _ => rfl, fun _ _ => rfl⟩

variable {run : Nat} {s : Store}

theorem gated_eq_false : s.gated run = false ↔ ∀ gate ∈ s.gates, gate.isOpen run = false := by
  simp only [Store.gated, any_eq_false, Bool.not_eq_true]

section Tables

variable {s t : Store} {selects : GateRow → Bool} {set : GateRow → GateRow} {gate : GateRow}

/-- A resolution leaves the other gates alone. -/
theorem mem_resolved {other : GateRow} (member : other ∈ s.gates) (different : other.id ≠ gate.id)
    (decision : Text) (reason : Option Text) :
    other ∈ (s.updateGates (fun row => row.id = gate.id && row.status = .pending)
      (GateRow.resolve decision reason)).gates :=
  mem_updateWhere.mpr ⟨other, member, (if_neg (by simp [different])).symm⟩

/-- After an update that closes them, none of the selected gates is open. -/
theorem not_open_of_selected (closes : ∀ gate, (set gate).status ≠ .pending)
    (member : gate ∈ (s.updateGates selects set).gates) (isOpen : gate.isOpen run = true) :
    selects gate = false := by
  obtain ⟨old, -, -, rfl⟩ | ⟨-, kept⟩ := mem_updateWhere_cases member
  · exact absurd (GateRow.isOpen_iff.mp isOpen).2.1 (closes old)
  · exact Bool.eq_false_iff.mpr kept

theorem GateTable.regates (table : GateTable s) (regates : Regates s t)
    (runs : ∀ run, (s.run? run).isSome → (t.run? run).isSome) : GateTable t where
  unique := by
    rw [regates.ids]
    exact table.unique
  named gate member run names := by
    obtain ⟨old, memberOld, runId, -, -⟩ := regates.rows gate member
    exact runs run (table.named old memberOld run (runId ▸ names))
  ofRun gate member kind := by
    obtain ⟨old, memberOld, runId, sameKind, -⟩ := regates.rows gate member
    rw [runId]
    exact table.ofRun old memberOld (sameKind ▸ kind)
  planBound gate member plan := by
    obtain ⟨old, memberOld, -, kind, bound⟩ := regates.rows gate member
    exact bound (table.planBound old memberOld (kind ▸ plan))

theorem GateTable.of_same (table : GateTable s) (gates : t.gates = s.gates) (runs : t.runs = s.runs) :
    GateTable t :=
  table.regates (closesGates_of_same gates).toRegates fun run found => by
    rw [Store.run?, runs]
    exact found

theorem GateTable.updateRun {f : RunRow → RunRow} (table : GateTable s)
    (keeps : ∀ row, (f row).id = row.id) : GateTable (s.updateRun run f) := by
  have same : ClosesGates s (s.updateRun run f) := closesGates_of_same rfl
  refine table.regates same.toRegates fun id found => ?_
  rw [updateRun_rewrites keeps id]
  split
  · rw [Option.isSome_map]
    exact found
  · exact found

theorem GateTable.insert {run : Nat} (table : GateTable s) (inserted : s.insertGate gate = some t)
    (names : gate.runId = some run) (exist : (s.run? run).isSome)
    (bound : gate.kind = .plan → gate.evidenceDigest.isSome) :
    GateTable t := by
  obtain ⟨rfl, fresh⟩ := insertGate_some inserted
  refine ⟨nodup_append_singleton table.unique fresh,
    forall_mem_snoc table.named fun id names' => ?_,
    forall_mem_snoc table.ofRun fun kind => ?_, forall_mem_snoc table.planBound bound⟩
  · obtain rfl : run = id := Option.mem_unique names names'
    exact exist
  · rw [names]
    rfl

/-- A gate without evidence does not open when it is made. -/
theorem narrows_insertGate (inserted : s.insertGate gate = some t)
    (unbound : gate.evidenceDigest = none) : Narrows s t run := by
  obtain ⟨rfl, -⟩ := insertGate_some inserted
  intro other member isOpen
  obtain old | new := mem_append.mp member
  · exact old
  · obtain rfl := mem_singleton.mp new
    have bound := (GateRow.isOpen_iff.mp isOpen).2.2.2
    rw [unbound] at bound
    cases bound

end Tables

/-! ## What the operations do to gates -/

section Operations

variable {s t : Store} {digests : Digests} {row : RunRow} {gate : GateRow} {revision : Nat}

/-! ### Proposals -/

section

variable (table : GateTable s)

include table

/-- Unbound gates are added. -/
theorem insertGates_rules {gates : List GateRow} (exist : (s.run? run).isSome)
    (unbound : ∀ gate ∈ gates, gate.evidenceDigest = none ∧ gate.kind ≠ .plan ∧ gate.runId = some run)
    (done : insertGates s gates = some t) : GateTable t ∧ ∀ other, Narrows s t other := by
  induction gates generalizing s with
  | nil =>
    cases done
    exact ⟨table, fun _ _ member _ => member⟩
  | cons gate gates ih =>
    obtain ⟨inserted, first, rest⟩ := of_bind done
    obtain ⟨none, stage, names⟩ := unbound gate mem_cons_self
    have runs := (insertGate_leaves first).runs
    have tableInserted := table.insert first names exist fun plan => absurd plan stage
    obtain ⟨tableLater, narrows⟩ := ih tableInserted (by rw [Store.run?, runs]; exact exist)
      (fun other member => unbound other (.tail _ member)) rest
    exact ⟨tableLater, fun other gate member isOpen =>
      narrows_insertGate first none gate (narrows other gate member isOpen) isOpen⟩

theorem materialize_rules {plan : PlanSnapshot} {newTaskId newGateId : Text → Nat} (exist : (s.run? row.id).isSome)
    (done : materialize s row revision plan newTaskId newGateId = some t) :
    GateTable t ∧ ∀ other, Narrows s t other := by
  rw [materialize, materializeGates_eq] at done
  obtain ⟨tableMade, narrows⟩ := insertGates_rules (table.of_same (by rfl) (by rfl)) (by exact exist) (by
    intro gate member
    obtain ⟨stage, -, rfl⟩ := mem_map.mp member
    exact ⟨rfl, GateKind.noConfusion, rfl⟩) done
  exact ⟨tableMade, narrows⟩

theorem openPlanGate_rules {id : Nat} {digest : Text}
    (exist : (s.run? run).isSome) (done : openPlanGate s id run revision digest = some t) :
    GateTable t ∧ ∀ other, ∀ gate ∈ t.gates, gate.isOpen other = true →
      gate ∈ s.gates ∨ gate = newRunGate id run .plan "plan".toList revision (some digest) := by
  have closes : ClosesGates s (s.updateGates (fun gate => gate.runId = some run && gate.kind = .plan &&
      gate.status = .pending) GateRow.invalidate) := invalidate_closes _
  have tableClosed := table.regates closes.toRegates fun _ found => found
  refine ⟨tableClosed.insert done rfl exist fun _ => rfl, fun other gate member isOpen => ?_⟩
  obtain ⟨rfl, -⟩ := insertGate_some done
  obtain old | new := mem_append.mp member
  · exact .inl (closes.narrows other gate old isOpen)
  · exact .inr (mem_singleton.mp new)

theorem openNeededGate_rules {needed : Bool} {request : ProposePlan}
    (exist : (s.run? run).isSome) (done : openNeededGate s needed run revision request = some t) :
    GateTable t ∧ ∀ other, ∀ gate ∈ t.gates, gate.isOpen other = true →
      gate ∈ s.gates ∨ needed = true ∧ gate = newRunGate request.planGateId run .plan "plan".toList
        revision (some request.plan.digest) := by
  rw [openNeededGate] at done
  split at done
  · rename_i need
    obtain ⟨tableLater, opens⟩ := openPlanGate_rules table exist done
    exact ⟨tableLater, fun other gate member isOpen =>
      (opens other gate member isOpen).imp_right fun new => ⟨need, new⟩⟩
  · cases done
    exact ⟨table, fun _ _ member _ => .inl member⟩

end

/-- The gates after a stored plan: its run has at most the new plan gate open, and that only if the
plan needs one. -/
structure Replanned (s t : Store) (row : RunRow) : Prop where
  table : GateTable t
  others : ∀ other, other ≠ row.id → Narrows s t other
  single : ∀ gate ∈ t.gates, ∀ other ∈ t.gates, gate.isOpen row.id = true →
    other.isOpen row.id = true → gate = other
  ungated : s.needsGate row = false → ∀ gate ∈ t.gates, gate.isOpen row.id = false

theorem storePlan_gates {request : ProposePlan} (table : GateTable s)
    (loaded : s.run? row.id = some row) (done : storePlan s row request = some t) :
    Replanned s t row := by
  obtain ⟨inserted, materialized, opened, ⟨runs, -⟩, gates, made, needed, rfl⟩ :=
    RunMachine.storePlan_some done
  have present : (s.run? row.id).isSome := by rw [loaded]; rfl
  -- the gates of the old plan are closed
  have superseded : ClosesGates s inserted := ClosesGates.of_gates (invalidate_closes _) gates
  have sameRuns : ∀ run, inserted.run? run = s.run? run := fun run => by
    rw [Store.run?, runs, Store.run?]
  have closed : ∀ gate ∈ inserted.gates, gate.isOpen row.id = false := by
    intro gate member
    rw [gates] at member
    by_contra isOpen
    rw [Bool.not_eq_false] at isOpen
    have selected := not_open_of_selected (fun _ pending => by cases pending) member isOpen
    obtain ⟨runId, pending, kind, -⟩ := GateRow.isOpen_iff.mp isOpen
    rw [runId, pending, kind] at selected
    simp at selected
  -- those of the new one are made
  have tableInserted : GateTable inserted := table.regates superseded.toRegates fun run found => by
    rw [sameRuns]
    exact found
  obtain ⟨tableMade, narrows⟩ := materialize_rules tableInserted
    (by rw [sameRuns]; exact present) made
  have madeRuns : materialized.runs = s.runs := (materialize_leaves made).runs.trans runs
  obtain ⟨tableOpened, opens⟩ := openNeededGate_rules tableMade
    (by rw [Store.run?, madeRuns]; exact present) needed
  have ofRow : ∀ gate ∈ opened.gates, gate.isOpen row.id = true → s.needsGate row = true ∧
      gate = newRunGate request.planGateId row.id .plan "plan".toList (row.planRevision.getD 0 + 1)
        (some request.plan.digest) := by
    intro gate member isOpen
    obtain old | new := opens row.id gate member isOpen
    · have kept := narrows row.id gate old isOpen
      rw [closed gate kept] at isOpen
      cases isOpen
    · exact new
  refine ⟨?_, fun other different gate member isOpen => ?_, fun gate member other member' isOpen isOpen' => ?_,
    fun ungated gate member => ?_⟩
  · exact tableOpened.updateRun fun _ => rfl
  · obtain old | ⟨-, rfl⟩ := opens other gate member isOpen
    · exact superseded.narrows other gate (narrows other gate old isOpen) isOpen
    · have names := (GateRow.isOpen_iff.mp isOpen).1
      exact absurd (Option.some.inj names).symm different
  · rw [(ofRow gate member isOpen).2, (ofRow other member' isOpen').2]
  · by_contra isOpen
    rw [Bool.not_eq_false] at isOpen
    rw [(ofRow gate member isOpen).1] at ungated
    cases ungated

/-! ### Evidence -/

/-- The loop binds gates of its run only, and none at all when it answers that none opened. -/
theorem openGates_rules {gates : List GateRow} {opened : Bool} (table : GateTable s)
    (candidates : ∀ gate ∈ gates, ∃ row ∈ s.gates, row.id = gate.id ∧ row.runId = some run)
    (done : openGates digests run s gates = some (opened, t)) :
    GateTable t ∧ (∀ other, other ≠ run → Narrows s t other) ∧ (opened = false → t = s) := by
  induction gates generalizing s opened with
  | nil =>
    cases done
    exact ⟨table, fun _ _ _ member _ => member, fun _ => rfl⟩
  | cons gate gates ih =>
    obtain ⟨evidence, _, rest⟩ := of_bind done
    have others : ∀ other ∈ gates, ∃ row ∈ s.gates, row.id = other.id ∧ row.runId = some run :=
      fun other member => candidates other (.tail _ member)
    cases evidence with
    | none => exact ih table others rest
    | some found =>
      obtain ⟨digest, sha⟩ := found
      obtain ⟨⟨later, store⟩, inner, done⟩ := of_bind rest
      cases done
      have bound : Regates s (s.updateGates (fun row => row.id = gate.id &&
          row.status = .pending && row.evidenceDigest.isNone) (GateRow.bindEvidence digest sha)) :=
        updateGates_regates (bindEvidence_keeps digest sha)
      have tableBound := table.regates bound fun _ present => present
      obtain ⟨tableLater, narrows, -⟩ := ih tableBound (fun other member => by
        obtain ⟨row, memberRow, id, runId⟩ := others other member
        refine ⟨_, mem_updateWhere_of_mem memberRow, ?_⟩
        split
        · exact ⟨id, runId⟩
        · exact ⟨id, runId⟩) inner
      refine ⟨tableLater, fun other different row member isOpen => ?_, fun same => by cases same⟩
      -- a row that was bound here is the candidate, which is a gate of `run`
      obtain ⟨old, memberOld, selected, rfl⟩ | ⟨memberOld, -⟩ :=
        mem_updateWhere_cases (narrows other different row member isOpen)
      · simp only [Bool.and_eq_true, decide_eq_true_eq] at selected
        obtain ⟨candidate, memberCandidate, id, runId⟩ := candidates gate mem_cons_self
        obtain rfl := eq_of_key table.unique memberOld memberCandidate
          (selected.1.1.trans id.symm)
        have names := (GateRow.isOpen_iff.mp isOpen).1
        exact absurd (Option.mem_unique names runId) different
      · exact memberOld

/-- Either no gate opened, or the run was running and is paused now. -/
theorem openDue_gates (table : GateTable s) (done : openDueStageGates digests s run = some t) :
    t = s ∨ GateTable t ∧ (∀ other, other ≠ run → Narrows s t other) ∧
      ∀ row, t.run? run = some row → row.status = .paused := by
  obtain ⟨⟨opened, bound⟩, inner, done⟩ := of_bind done
  have same := (openGates_leaves inner).runs
  cases loaded : s.run? run with
  | none =>
    rw [loaded] at inner
    cases inner
    exact .inl (Option.some.inj done).symm
  | some row =>
    rw [loaded] at inner
    dsimp only at inner
    split at inner
    · rename_i running
      obtain ⟨tableBound, narrows, unchanged⟩ := openGates_rules table (fun gate member => by
        obtain ⟨memberGate, selected⟩ := mem_filter.mp member
        simp only [Bool.and_eq_true, decide_eq_true_eq] at selected
        exact ⟨gate, memberGate, rfl, selected.1.1.1.1⟩) inner
      cases opened with
      | false =>
        cases done
        exact .inl (unchanged rfl)
      | true =>
        cases done
        let pause (row : RunRow) : RunRow :=
          if row.status = .running then row.pauseForRuntime else row
        have keeps : ∀ row, (pause row).id = row.id := by
          intro row
          dsimp only [pause]
          split
          · rfl
          · rfl
        refine .inr ⟨tableBound.updateRun keeps, narrows, fun after found => ?_⟩
        have later : (bound.updateRun run pause).run? run = some after := found
        rw [updateRun_rewrites keeps run, if_pos rfl, Store.run?, same, ← Store.run?, loaded] at later
        cases later
        exact congrArg RunRow.status (if_pos running)
    · cases inner
      exact .inl (Option.some.inj done).symm

/-- Changed evidence closes gates and makes unbound ones. -/
theorem invalidateStageGates_rules {newId : Nat → Nat} (table : GateTable s)
    (done : invalidateStageGates s run newId = some t) :
    GateTable t ∧ ∀ other, Narrows s t other := by
  have closes : ClosesGates s (s.updateGates (GateRow.revocable run) GateRow.invalidate) :=
    invalidate_closes _
  have tableClosed := table.regates closes.toRegates fun _ found => found
  rw [invalidateStageGates] at done
  cases loaded : s.run? run with
  | none =>
    simp only [loaded, Option.isSome_none, Bool.and_false, Bool.false_and, filter_false,
      map_nil] at done
    cases done
    exact ⟨tableClosed, closes.narrows⟩
  | some row =>
    have exist : (s.run? run).isSome := by rw [loaded]; rfl
    obtain ⟨tableLater, narrows⟩ := insertGates_rules tableClosed (by exact exist) (by
      intro gate member
      obtain ⟨old, memberOld, rfl⟩ := mem_map.mp member
      obtain ⟨-, replaced⟩ := mem_filter.mp memberOld
      simp only [Bool.and_eq_true, GateRow.revocable, decide_eq_true_eq] at replaced
      obtain ⟨⟨⟨⟨⟨names, stage⟩, -⟩, -⟩, -⟩, -⟩ := replaced
      refine ⟨rfl, fun plan => ?_, names⟩
      rw [stage] at plan
      cases plan) done
    exact ⟨tableLater, fun other gate member isOpen =>
      closes.narrows other gate (narrows other gate member isOpen) isOpen⟩

end Operations

/-! ## Rules of every state -/

/-- What the status of a run says about its open gates. -/
structure Waits (s : Store) (row : RunRow) : Prop where
  running : row.status = .running → ∀ gate ∈ s.gates, gate.isOpen row.id = false
  awaiting : row.status = .awaitingApproval → ∀ gate ∈ s.gates, ∀ other ∈ s.gates,
    gate.isOpen row.id = true → other.isOpen row.id = true → gate = other

structure GateRules (s : Store) : Prop where
  table : GateTable s
  waits : ∀ row, s.run? row.id = some row → Waits s row

section Waiting

variable {s t : Store} {old new : RunRow}

theorem Waits.of_ungated (ungated : ∀ gate ∈ s.gates, gate.isOpen new.id = true → False) :
    Waits s new where
  running _ gate member := Bool.eq_false_iff.mpr (ungated gate member)
  awaiting _ gate member _ _ isOpen := (ungated gate member isOpen).elim

theorem Waits.of_status (running : new.status ≠ .running) (awaiting : new.status ≠ .awaitingApproval) :
    Waits s new :=
  ⟨fun is => absurd is running, fun is => absurd is awaiting⟩

theorem Waits.of_finished (finished : new.status.finished = true) : Waits s new :=
  .of_status (fun is => by rw [is] at finished; cases finished)
    fun is => by rw [is] at finished; cases finished

theorem Waits.narrowed (waits : Waits s old) (narrows : Narrows s t new.id) (id : new.id = old.id)
    (status : new.status = old.status) : Waits t new where
  running is gate member := by
    by_contra isOpen
    rw [Bool.not_eq_false] at isOpen
    have closed := waits.running (status ▸ is) gate (narrows gate member isOpen)
    rw [← id, isOpen] at closed
    cases closed
  awaiting is gate member other member' isOpen isOpen' :=
    waits.awaiting (status ▸ is) gate (narrows gate member isOpen) other
      (narrows other member' isOpen') (id ▸ isOpen) (id ▸ isOpen')

end Waiting

/-- A coordinator that finishes a run gives it a final status. -/
def RunEvent.EndsRuns : RunEvent → Prop
  | .finish _ status _ => status.finished = true
  | _ => True

/-- The gate that a resolution decides is not open afterwards; proposals are left to themselves. -/
def ClosesDecided (m : RunMachine) (t : Store) : RunEvent → Prop
  | .propose _ => False
  | .resolve request => ∀ decision gate run, Decides m request decision gate run →
      ∀ other ∈ t.gates, other.isOpen run = true → other.id ≠ gate.id
  | _ => True

/-- A due plan gate is open. -/
theorem Decides.isOpen {m : RunMachine} {request : ResolveGate} {decision : Text} {gate : GateRow}
    (table : GateTable m.store) (decides : Decides m request decision gate run)
    (plan : gate.kind = .plan) : gate ∈ m.store.gates ∧ gate.isOpen run = true := by
  have member := (lookup_some decides.found).1
  obtain ⟨id, names⟩ := isSome_iff_exists.mp (table.ofRun gate member decides.ofRun)
  have same : id = run := by
    have run := decides.run
    rw [names] at run
    exact run
  have due := decides.due
  rw [GateRow.due, Bool.and_eq_true, decide_eq_true_eq] at due
  exact ⟨member, GateRow.isOpen_iff.mpr
    ⟨same ▸ names, due.1, decides.ofRun, table.planBound gate member plan⟩⟩

namespace RunMachine

variable {digests : Digests} {m m' : RunMachine} {t : Store} {event : RunEvent} {old new : RunRow}

/-- Where open gates only close, every way of starting a run finds the other gates closed. -/
theorem waits_of_change (rules : GateRules m.store) (found : m.store.run? old.id = some old)
    (change : RunChange m old new event) (id : new.id = old.id) (ends : event.EndsRuns)
    (narrows : Narrows m.store t new.id) (decided : ClosesDecided m t event) : Waits t new := by
  have waits := rules.waits old found
  cases change with
  | unchanged columns => exact waits.narrowed narrows id columns.status
  | proposed => exact decided.elim
  | @planApproved request gate decides plan awaiting columns =>
    refine .of_ungated fun other member isOpen => ?_
    obtain ⟨memberGate, openGate⟩ := decides.isOpen rules.table plan
    have same := waits.awaiting awaiting other (narrows other member isOpen) gate memberGate
      (id ▸ isOpen) openGate
    exact decided _ _ _ decides other member (id ▸ isOpen) (congrArg GateRow.id same)
  | @stageApproved request gate reason decides stage paused ungated columns =>
    refine .of_ungated fun other member isOpen => ?_
    have different := decided _ _ _ decides other member (id ▸ isOpen)
    have kept := mem_resolved (narrows other member isOpen) different gateApprove reason
    have closed := gated_eq_false.mp ungated other kept
    rw [← id, isOpen] at closed
    cases closed
  | resumed _ _ paused ungated columns =>
    refine .of_ungated fun other member isOpen => ?_
    have closed := gated_eq_false.mp ungated other (narrows other member isOpen)
    rw [← id, isOpen] at closed
    cases closed
  | rejected _ columns | cancelled _ columns | retried _ columns | completed _ columns
  | stopped _ columns =>
    exact .of_finished (by rw [columns.status]; rfl)
  | sentBack _ columns | paused _ columns | replanned _ columns | pausedByRuntime _ columns =>
    exact .of_status (by rw [columns.status]; nofun) (by rw [columns.status]; nofun)
  | finished _ columns => exact .of_finished (by rw [columns.status]; exact ends)

/-- A run that does not exist has no open gates. -/
theorem ungated_of_missing {run : Nat} (table : GateTable s) (missing : s.run? run = none) :
    ∀ gate ∈ s.gates, gate.isOpen run = true → False := by
  intro gate member isOpen
  have named := table.named gate member run (GateRow.isOpen_iff.mp isOpen).1
  rw [missing] at named
  cases named

theorem persists (changes : Changes m t event) (run : Nat) (present : (m.store.run? run).isSome) :
    (t.run? run).isSome := by
  obtain ⟨old, found⟩ := isSome_iff_exists.mp present
  have id : old.id = run := (lookup_some found).2
  obtain ⟨new, later, -⟩ := changes old (id ▸ found)
  rw [← id, later]
  rfl

/-- The row of a run after a step comes from its row before, unless the run is new. -/
theorem waits_of_steps (changes : Changes m t event)
    (kept : ∀ old, m.store.run? old.id = some old → RunChange m old new event → new.id = old.id →
      Waits t new)
    (added : m.store.run? new.id = none → Waits t new) (found : t.run? new.id = some new) :
    Waits t new := by
  cases prior : m.store.run? new.id with
  | none => exact added prior
  | some old =>
    have id : old.id = new.id := (lookup_some prior).2
    rw [← id] at prior found
    obtain ⟨after, later, change⟩ := changes old prior
    obtain rfl : after = new := Option.mem_unique later found
    exact kept old prior change id.symm

section

variable (rules : GateRules m.store)

include rules

theorem rules_of_narrows (changes : Changes m t event)
    (ends : event.EndsRuns) (table : GateTable t) (narrows : ∀ run, Narrows m.store t run)
    (decided : ClosesDecided m t event) : GateRules t where
  table := table
  waits new found := by
    refine waits_of_steps changes (fun old prior change id => ?_) (fun missing => ?_) found
    · exact waits_of_change rules prior change id ends (narrows new.id) decided
    · exact .of_ungated fun gate member isOpen =>
        ungated_of_missing rules.table missing gate (narrows new.id gate member isOpen) isOpen

theorem rules_of_closes (changes : Changes m t event)
    (ends : event.EndsRuns) (closes : ClosesGates m.store t) (decided : ClosesDecided m t event) :
    GateRules t :=
  rules_of_narrows rules changes ends (rules.table.regates closes.toRegates (persists changes))
    closes.narrows decided

omit rules in
/-- A plan that leaves its run running needs no gate. -/
theorem needsGate_of_running (running : s.proposedStatus old = .running) :
    s.needsGate old = false := by
  rw [Store.proposedStatus] at running
  split at running
  · cases running
  · rename_i needs
    exact Bool.eq_false_iff.mpr needs

theorem propose_rules {request : ProposePlan}
    (done : proposeRunPlan m.store request = some t) : GateRules t := by
  obtain ⟨rfl, -⟩ | ⟨row, -, loaded, -, done⟩ := proposeRunPlan_some done
  · exact rules
  have loadedRow : m.store.run? row.id = some row := by
    rw [(lookup_some loaded).2]
    exact loaded
  have gates := storePlan_gates rules.table loadedRow done
  refine ⟨gates.table, fun new found => ?_⟩
  rw [(storePlan_amends done).rewrites new.id] at found
  split at found
  · rename_i here
    rw [here, loadedRow] at found
    cases found
    exact ⟨fun running => gates.ungated (needsGate_of_running running), fun _ => gates.single⟩
  · rename_i other
    exact (rules.waits new found).narrowed (gates.others new.id other) rfl rfl

theorem openDue_rules {run : Nat}
    (done : openDueStageGates digests m.store run = some t) : GateRules t := by
  have changes := (openDue_acts done).changes
  obtain rfl | ⟨table, others, paused⟩ := openDue_gates rules.table done
  · exact rules
  refine ⟨table, fun new found => ?_⟩
  by_cases here : new.id = run
  · have status := paused new (here ▸ found)
    exact .of_status (by rw [status]; nofun) (by rw [status]; nofun)
  · refine waits_of_steps changes (fun old prior change id => ?_) (fun missing => ?_) found
    · exact waits_of_change rules prior change id trivial (others new.id here) trivial
    · exact .of_ungated fun gate member isOpen =>
        ungated_of_missing rules.table missing gate (others new.id here gate member isOpen) isOpen

omit rules in
/-- The decided gate of a resolution is closed. -/
theorem resolve_closesDecided {request : ResolveGate}
    (done : resolveRunGate digests m.store request = some t) : ClosesDecided m t (.resolve request) := by
  intro decision gate run decides other member isOpen
  obtain ⟨_, _, done⟩ := of_bind done
  rw [decides.fresh] at done
  obtain ⟨loaded, lookedUp, done⟩ := of_bind done
  obtain rfl : loaded = gate := Option.mem_unique lookedUp decides.found
  obtain ⟨reason, resolved, set, rfl, -, -, later, -⟩ := decideGate_closing done
  have selected := not_open_of_selected (fun _ pending => by cases pending)
    (later.narrows run other member isOpen) isOpen
  intro same
  rw [same, (GateRow.isOpen_iff.mp isOpen).2.1] at selected
  simp at selected

theorem step_rules (ends : event.EndsRuns)
    (stepped : m.step digests event = some m') : GateRules m'.store := by
  have changes := step_changes stepped
  cases event with
  | propose request =>
    obtain ⟨store, done, rfl⟩ := of_map stepped
    exact propose_rules rules done
  | resolve request =>
    obtain ⟨store, done, rfl⟩ := of_map stepped
    exact rules_of_closes rules changes ends ((resolve_does done).closes rfl)
      (resolve_closesDecided done)
  | openDue run =>
    obtain ⟨store, done, rfl⟩ := of_map stepped
    exact openDue_rules rules done
  | work work =>
    cases stepped
    exact rules_of_closes rules changes ends (closesGates_of_same rfl) trivial
  | evidenceChanged run newId =>
    obtain ⟨store, done, rfl⟩ := of_map stepped
    obtain ⟨table, narrows⟩ := invalidateStageGates_rules rules.table done
    exact rules_of_narrows rules changes ends table narrows trivial
  | _ =>
    have does := step_does (fun _ is => by cases is) stepped
    exact rules_of_closes rules changes ends (does.closes rfl) trivial

end

theorem empty_rules : GateRules empty.store where
  table := ⟨nodup_nil, fun _ member => absurd member not_mem_nil,
    fun _ member => absurd member not_mem_nil, fun _ member => absurd member not_mem_nil⟩
  waits row found := by
    have missing : (none : Option RunRow) = some row := found
    cases missing

/-- The rules hold in every state that a history reaches. -/
theorem run_rules {events : List RunEvent} (ends : ∀ event ∈ events, event.EndsRuns)
    (ran : Theory.run (step digests) empty events = some m) : GateRules m.store :=
  run_invariant_of_guarded (fun m => GateRules m.store)
    (fun _ _ _ rules ends stepped => step_rules rules ends stepped) events empty m
    (guarded_of_forall ends empty) empty_rules ran

/-! ## Histories -/

/-- The events that start or resume a run. -/
inductive Starts (m : RunMachine) (run : RunRow) : RunEvent → Prop where
  | planApproved {request : ResolveGate} {gate : GateRow}
      (decides : Decides m request gateApprove gate run.id) (plan : gate.kind = .plan)
      (awaiting : run.status = .awaitingApproval) : Starts m run (.resolve request)
  | stageApproved {request : ResolveGate} {gate : GateRow}
      (decides : Decides m request gateApprove gate run.id) (stage : gate.kind = .stage)
      (others : ∀ other ∈ m.store.gates, other.isOpen run.id = true → other.id = gate.id) :
      Starts m run (.resolve request)
  | resumed {request : RunControl} (resume : request.action = .resume) (target : request.runId = run.id)
      (ungated : m.store.gated run.id = false) : Starts m run (.control request)
  | proposed {request : ProposePlan} (target : request.runId = run.id)
      (needsNone : m.store.needsGate run = false) : Starts m run (.propose request)

/-- Whatever makes a run running is one of these. -/
theorem starts_of_change (change : RunChange m old new event) (ends : event.EndsRuns)
    (waiting : old.status ≠ .running) (running : new.status = .running) : Starts m old event := by
  have unlike {status : RunStatus} (is : new.status = status) : status = .running :=
    is.symm.trans running
  cases change with
  | unchanged columns => exact absurd (columns.status.symm.trans running) waiting
  | proposed target _ _ columns => exact .proposed target (needsGate_of_running (unlike columns.status))
  | planApproved decides plan awaiting _ => exact .planApproved decides plan awaiting
  | @stageApproved request gate reason decides stage _ ungated _ =>
    refine .stageApproved decides stage fun other member isOpen => ?_
    by_contra different
    have kept := mem_resolved member different gateApprove reason
    have closed := gated_eq_false.mp ungated other kept
    rw [isOpen] at closed
    cases closed
  | resumed resume target _ ungated _ => exact .resumed resume target ungated
  | rejected _ columns | sentBack _ columns | paused _ columns | cancelled _ columns
  | replanned _ columns | retried _ columns | pausedByRuntime _ columns | completed _ columns
  | stopped _ columns =>
    cases unlike columns.status
  | finished _ columns =>
    have finished : RunStatus.finished _ = true := ends
    rw [unlike columns.status] at finished
    cases finished

/-- **A run waits at its open gates.**  In every state that a history reaches, a run with an open
gate is not running, so that no dispatch of it is accepted; and a step that makes a run running is
a plan approval while it awaits one, a stage approval or a resume that leaves no other gate open,
or a proposal that needs no gate. -/
theorem gated_run_waits {events : List RunEvent} (ends : ∀ event ∈ events, event.EndsRuns)
    (ran : Theory.run (step digests) empty events = some m) :
    (∀ run, ∀ gate ∈ m.store.gates, gate.isOpen run = true →
      m.store.dispatchAborted run = true ∧
        ∃ row, m.store.run? run = some row ∧ row.status ≠ .running) ∧
    ∀ event m' old new, event.EndsRuns → m.step digests event = some m' →
      m.store.run? old.id = some old → m'.store.run? old.id = some new →
      old.status ≠ .running → new.status = .running → Starts m old event := by
  have rules := run_rules ends ran
  refine ⟨fun run gate member isOpen => ?_, fun event m' old new ends stepped found later => ?_⟩
  · have named := rules.table.named gate member run (GateRow.isOpen_iff.mp isOpen).1
    obtain ⟨row, found⟩ := isSome_iff_exists.mp named
    obtain ⟨memberRow, id⟩ := lookup_some found
    have waiting : row.status ≠ .running := by
      intro running
      have closed := (rules.waits row (id.symm ▸ found)).running running gate member
      rw [id, isOpen] at closed
      cases closed
    refine ⟨any_eq_true.mpr ⟨row, memberRow, ?_⟩, row, found, waiting⟩
    simp [id, waiting]
  · intro waiting running
    obtain ⟨after, later', change⟩ := step_changes stepped old found
    obtain rfl : after = new := Option.mem_unique later' later
    exact starts_of_change change ends waiting running

/-- A run whose first plan was proposed: its plan gate is open, and its dispatches are aborted. -/
theorem gated_run_waits_proposed :
    ∃ m, Theory.run (step plainDigests) empty [.create guardedRun 1, .propose firstPlan] = some m ∧
      m.store.gated 1 = true ∧ m.store.dispatchAborted 1 = true := by
  have runs : (Theory.run (step plainDigests) empty
      [.create guardedRun 1, .propose firstPlan]).map (fun m => m.store.gated 1) = some true := by
    decide +kernel
  obtain ⟨m, ran, gated⟩ := of_map runs
  obtain ⟨gate, member, isOpen⟩ := any_eq_true.mp gated
  have ends : ∀ event ∈ [RunEvent.create guardedRun 1, .propose firstPlan], event.EndsRuns := by
    intro event member
    obtain rfl | rfl : event = .create guardedRun 1 ∨ event = .propose firstPlan := by simpa using member
    · trivial
    · trivial
  exact ⟨m, ran, gated, ((gated_run_waits ends ran).1 1 gate member isOpen).1⟩

end RunMachine

end Alera.Orchestration
