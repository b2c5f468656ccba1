/-
# Alera.Orchestration.ControlSequence -- commands on a run that changed

A person's command names the `control_sequence` it has seen, so that a stale screen
cannot act on a run that changed (`run_control.rs`).  Most writers of a run's status or
plan revision count the sequence.  Three do not: completion and a rejected gate, which
finish the run and so leave nothing to command, and a stored plan, which does not.

`command_current_iff` says what follows: between the screen's read and a command that
succeeds, status and plan revision have stayed if and only if no plan was stored for
the run in between.  `stale_screen_cancels` is a command that a stored plan lets
through.
-/
import Alera.Orchestration.RunGates

namespace Alera.Orchestration

open Theory Tables

set_option autoImplicit false

/-- The event is a proposal for the run that no receipt answers. -/
def StoresPlan (run : Nat) (m : RunMachine) : RunEvent → Prop
  | .propose request => request.runId = run ∧ m.store.proposal? request = none
  | _ => False

namespace RunMachine

variable {digests : Digests} {m m' : RunMachine} {event : RunEvent} {read old new : RunRow}

/-! ## What the sequence does not count -/

/-- A change of a run that was not counted. -/
inductive Uncounted (m : RunMachine) (old new : RunRow) (event : RunEvent) : Prop where
  | same (status : new.status = old.status) (planRevision : new.planRevision = old.planRevision)
  | isOver (finished : new.status.finished = true) (planRevision : new.planRevision = old.planRevision)
  | stored (stores : StoresPlan old.id m event) (unfinished : old.status.finished = false)
      (planRevision : new.planRevision = some (old.planRevision.getD 0 + 1))

/-- Every change is counted, or it is one of these. -/
theorem counted_or_uncounted (change : RunChange m old new event) (ends : event.EndsRuns) :
    new.controlSequence = old.controlSequence + 1 ∨
      new.controlSequence = old.controlSequence ∧ Uncounted m old new event := by
  have isOver {status : RunStatus} (columns : Columns new status old.planRevision old.controlSequence)
      (finished : status.finished = true) :
      new.controlSequence = old.controlSequence ∧ Uncounted m old new event :=
    ⟨columns.controlSequence, .isOver (by rw [columns.status]; exact finished) columns.planRevision⟩
  cases change with
  | unchanged columns => exact .inr ⟨columns.controlSequence, .same columns.status columns.planRevision⟩
  | proposed target proposable fresh columns =>
    have unfinished : old.status.finished = false := by
      by_contra finished
      rw [Bool.not_eq_false] at finished
      rw [not_proposable_of_finished finished] at proposable
      cases proposable
    exact .inr ⟨columns.controlSequence, .stored ⟨target, fresh⟩ unfinished columns.planRevision⟩
  | planApproved _ _ _ columns | stageApproved _ _ _ _ columns | sentBack _ columns
  | paused _ columns | resumed _ _ _ _ columns | cancelled _ columns
  | replanned _ columns | retried _ columns | pausedByRuntime _ columns =>
    exact .inl columns.controlSequence
  | rejected _ columns | completed _ columns | stopped _ columns => exact .inr (isOver columns rfl)
  | finished _ columns => exact .inr (isOver columns ends)

/-- A plan that is stored raises the revision of its run. -/
theorem storesPlan_raises (stores : StoresPlan old.id m event) (stepped : m.step digests event = some m')
    (found : m.store.run? old.id = some old) :
    ∃ new, m'.store.run? old.id = some new ∧ new.controlSequence = old.controlSequence ∧
      new.planRevision = some (old.planRevision.getD 0 + 1) := by
  cases event with
  | propose request =>
    obtain ⟨target, fresh⟩ := stores
    obtain ⟨store, done, rfl⟩ := of_map stepped
    obtain ⟨-, known⟩ | ⟨row, -, loaded, -, done⟩ := proposeRunPlan_some done
    · rw [fresh] at known
      cases known
    · rw [target, found] at loaded
      obtain rfl := Option.some.inj loaded
      refine ⟨m.store.plannedRow old request old, ?_, rfl, rfl⟩
      rw [(storePlan_amends done).rewrites old.id, if_pos rfl, found, Option.map_some]
  | _ => exact stores.elim

/-! ## Histories between a read and a command -/

/-- How a run stands to a row that was read earlier, when no plan was stored since. -/
def Stands (read : RunRow) (m : RunMachine) : Prop :=
  ∃ row, m.store.run? read.id = some row ∧ (read.controlSequence < row.controlSequence ∨
    row.controlSequence = read.controlSequence ∧
      (row.status = read.status ∧ row.planRevision = read.planRevision ∨ row.status.finished = true))

theorem step_stands (stands : Stands read m) (ends : event.EndsRuns)
    (unstored : ¬ StoresPlan read.id m event) (stepped : m.step digests event = some m') :
    Stands read m' := by
  obtain ⟨row, found, since⟩ := stands
  have id : row.id = read.id := (lookup_some found).2
  obtain ⟨new, later, change⟩ := step_changes stepped row (id ▸ found)
  refine ⟨new, id ▸ later, ?_⟩
  obtain counted | ⟨uncounted, how⟩ := counted_or_uncounted change ends
  · exact .inl (by omega)
  · obtain more | ⟨same, columns⟩ := since
    · exact .inl (by omega)
    · refine .inr ⟨uncounted.trans same, ?_⟩
      cases how with
      | same status planRevision =>
        rw [status, planRevision]
        exact columns
      | isOver finished => exact .inr finished
      | stored stores => exact absurd (id ▸ stores) unstored

/-- The revision of a run does not fall while its sequence stays. -/
def Climbs (read : RunRow) (m : RunMachine) : Prop :=
  ∃ row, m.store.run? read.id = some row ∧ (read.controlSequence < row.controlSequence ∨
    row.controlSequence = read.controlSequence ∧ read.planRevision.getD 0 ≤ row.planRevision.getD 0)

theorem step_climbs (climbs : Climbs read m) (ends : event.EndsRuns)
    (stepped : m.step digests event = some m') : Climbs read m' := by
  obtain ⟨row, found, since⟩ := climbs
  have id : row.id = read.id := (lookup_some found).2
  obtain ⟨new, later, change⟩ := step_changes stepped row (id ▸ found)
  refine ⟨new, id ▸ later, ?_⟩
  obtain counted | ⟨uncounted, how⟩ := counted_or_uncounted change ends
  · exact .inl (by omega)
  · obtain more | ⟨same, lower⟩ := since
    · exact .inl (by omega)
    · refine .inr ⟨uncounted.trans same, ?_⟩
      cases how with
      | same _ planRevision | isOver _ planRevision =>
        rw [planRevision]
        exact lower
      | stored _ _ planRevision =>
        rw [planRevision, Option.getD_some]
        omega

theorem run_climbs {events : List RunEvent} (ends : ∀ event ∈ events, event.EndsRuns)
    (climbs : Climbs read m) (ran : Theory.run (step digests) m events = some m') : Climbs read m' :=
  run_invariant_of_guarded (Climbs read)
    (fun _ _ _ climbs ends stepped => step_climbs climbs ends stepped) events m m'
    (guarded_of_forall ends m) climbs ran

theorem run_stands {events : List RunEvent} (ends : ∀ event ∈ events, event.EndsRuns)
    (unstored : Guarded (step digests) (fun m event => ¬ StoresPlan read.id m event) m events)
    (stands : Stands read m) (ran : Theory.run (step digests) m events = some m') : Stands read m' := by
  induction events generalizing m with
  | nil =>
    cases ran
    exact stands
  | cons event events ih =>
    obtain ⟨next, stepped, rest⟩ := of_bind ran
    exact ih (fun other member => ends other (.tail _ member)) (unstored.2 next stepped)
      (step_stands stands (ends event List.mem_cons_self) unstored.1 stepped) rest

/-- A command that succeeds finds its run unfinished. -/
theorem control_unfinished {s t : Store} {request : RunControl} {status : RunStatus}
    (command : control s request status = some t) : status.finished = false := by
  rw [Orchestration.control] at command
  split at command
  · obtain ⟨running, command⟩ := of_when command
    rw [running]
    rfl
  · obtain ⟨ready, command⟩ := of_when command
    rw [Bool.and_eq_true, decide_eq_true_eq] at ready
    rw [ready.1]
    rfl
  · obtain ⟨unfinished, command⟩ := of_unless command
    exact Bool.eq_false_iff.mpr unfinished
  · obtain ⟨unfinished, command⟩ := of_unless command
    exact Bool.eq_false_iff.mpr unfinished

/-- **Commands on a run that changed.**  A screen read the run, and later a command with the sequence
it has seen succeeds, under a request id that is not known.  The run's status and plan revision
are the ones that were read if and only if no plan was stored for it in between. -/
theorem command_current_iff {events : List RunEvent} {request : RunControl}
    (ends : ∀ event ∈ events, event.EndsRuns) (found : m.store.run? read.id = some read)
    (ran : Theory.run (step digests) m events = some m') (target : request.runId = read.id)
    (expected : request.expectedSequence = read.controlSequence)
    (fresh : m'.store.receipt? request.requestId = none)
    (commanded : (m'.step digests (.control request)).isSome) :
    (∃ now, m'.store.run? read.id = some now ∧ now.status = read.status ∧
        now.planRevision = read.planRevision) ↔
      Guarded (step digests) (fun m event => ¬ StoresPlan read.id m event) m events := by
  obtain ⟨after, stepped⟩ := Option.isSome_iff_exists.mp commanded
  obtain ⟨store, done, rfl⟩ := of_map stepped
  obtain ⟨-, known⟩ | ⟨row, commanded, -, loaded, sequence, command, -⟩ := runCommand_some done
  · rw [fresh] at known
    cases known
  rw [target] at loaded
  constructor
  · rintro ⟨now, present, -, revision⟩
    obtain rfl : row = now := Option.mem_unique loaded present
    refine guarded_of_steps ran fun before event later s t split ranBefore stepped stores => ?_
    have endsBefore : ∀ other ∈ before, other.EndsRuns := fun other member =>
      ends other (by rw [split]; exact List.mem_append_left _ member)
    have endsLater : ∀ other ∈ later, other.EndsRuns := fun other member =>
      ends other (by rw [split]; exact List.mem_append_right _ (.tail _ member))
    obtain ⟨old, foundOld, since⟩ :=
      run_climbs endsBefore ⟨read, found, .inr ⟨rfl, Nat.le_refl _⟩⟩ ranBefore
    have id : old.id = read.id := (lookup_some foundOld).2
    obtain ⟨new, foundNew, uncounted, raised⟩ :=
      storesPlan_raises (id ▸ stores) stepped (id ▸ foundOld)
    have idNew : new.id = read.id := ((lookup_some foundNew).2).trans id
    have ranLater : Theory.run (step digests) t later = some m' := by
      rw [split, run_append, ranBefore, Option.bind_some, run_cons, stepped] at ran
      exact ran
    obtain ⟨last, foundLast, sinceNew⟩ :=
      run_climbs endsLater ⟨new, by rw [idNew, ← id]; exact foundNew, .inr ⟨rfl, Nat.le_refl _⟩⟩ ranLater
    obtain rfl : last = row := by
      rw [idNew, loaded] at foundLast
      exact (Option.some.inj foundLast).symm
    rw [raised, Option.getD_some] at sinceNew
    rw [revision] at sinceNew
    omega
  · intro unstored
    obtain ⟨now, present, since⟩ :=
      run_stands ends unstored ⟨read, found, .inr ⟨rfl, .inl ⟨rfl, rfl⟩⟩⟩ ran
    obtain rfl : row = now := Option.mem_unique loaded present
    obtain more | ⟨-, columns | finished⟩ := since
    · omega
    · exact ⟨row, present, columns⟩
    · rw [control_unfinished command] at finished
      cases finished

/-- A screen that read the proposed run cancels it, after the scheduler asked for attention in vain. -/
theorem command_current_proposed :
    ∃ m m' read now, Theory.run (step plainDigests) empty
        [.create guardedRun 1, .propose firstPlan] = some m ∧
      Theory.run (step plainDigests) m [.attention 1 1 0 "late".toList] = some m' ∧
      (m'.step plainDigests (.control cancelRun)).isSome ∧
      m.store.run? 1 = some read ∧ m'.store.run? 1 = some now ∧ now.status = read.status ∧
      now.planRevision = read.planRevision := by
  have runs : ((Theory.run (step plainDigests) empty [.create guardedRun 1, .propose firstPlan]).bind
      fun m => (Theory.run (step plainDigests) m [.attention 1 1 0 "late".toList]).bind fun m' =>
        (m.store.run? 1).map fun read =>
          decide (read.id = 1 ∧ read.controlSequence = 0 ∧
            m'.store.receipt? cancelRun.requestId = none ∧
            (m'.step plainDigests (.control cancelRun)).isSome)) = some true := by
    decide +kernel
  obtain ⟨m, ran, m', ranLater, runs⟩ := of_bind₂ runs
  obtain ⟨read, found, facts⟩ := of_map runs
  obtain ⟨id, sequence, fresh, commanded⟩ := of_decide_eq_true facts
  have ends : ∀ event ∈ [RunEvent.attention 1 1 0 "late".toList], event.EndsRuns := by
    intro event member
    obtain rfl := List.mem_singleton.mp member
    trivial
  have foundRead : m.store.run? read.id = some read := id ▸ found
  have target : cancelRun.runId = read.id := id.symm
  have expected : cancelRun.expectedSequence = read.controlSequence := by
    rw [sequence]
    rfl
  obtain ⟨now, present, status, revision⟩ :=
    (command_current_iff ends foundRead ranLater target expected fresh commanded).mpr
      ⟨fun stores => stores, fun _ _ => trivial⟩
  exact ⟨m, m', read, now, ran, ranLater, commanded, found, id ▸ present, status, revision⟩

/-- **A stale screen acts**: the screen shows a run that is planning without a plan; a plan is stored,
and the screen's command still succeeds, on a run that now awaits approval of revision 1. -/
theorem stale_screen_cancels :
    ∃ m m' read now, Theory.run (step plainDigests) empty [.create guardedRun 1] = some m ∧
      m.step plainDigests (.propose firstPlan) = some m' ∧
      m.store.run? 1 = some read ∧ m'.store.run? 1 = some now ∧
      read.status = .planning ∧ read.planRevision = none ∧
      cancelRun.expectedSequence = read.controlSequence ∧
      m'.store.receipt? cancelRun.requestId = none ∧
      (m'.step plainDigests (.control cancelRun)).isSome ∧
      now.status = .awaitingApproval ∧ now.planRevision = some 1 := by
  have runs : ((Theory.run (step plainDigests) empty [.create guardedRun 1]).bind fun m =>
      (m.step plainDigests (.propose firstPlan)).bind fun m' => (m.store.run? 1).bind fun read =>
        (m'.store.run? 1).map fun now => decide (
          read.status = .planning ∧ read.planRevision = none ∧
          cancelRun.expectedSequence = read.controlSequence ∧
          m'.store.receipt? cancelRun.requestId = none ∧
          (m'.step plainDigests (.control cancelRun)).isSome ∧
          now.status = .awaitingApproval ∧ now.planRevision = some 1)) = some true := by
    decide +kernel
  obtain ⟨m, ran, m', stepped, runs⟩ := of_bind₂ runs
  obtain ⟨read, found, runs⟩ := of_bind runs
  obtain ⟨now, present, facts⟩ := of_map runs
  exact ⟨m, m', read, now, ran, stepped, found, present, of_decide_eq_true facts⟩

/-- **A command that came too late stays refused.**  Once the sequence of a run is past the one that
a command expects, no later state accepts it under a new request id. -/
theorem stale_command_refused {events : List RunEvent} {requestId digest : Text} {expected : Int}
    {command : RunStatus → Option Store} (ends : ∀ event ∈ events, event.EndsRuns)
    (found : m.store.run? read.id = some read) (stale : expected < read.controlSequence)
    (ran : Theory.run (step digests) m events = some m')
    (fresh : m'.store.receipt? requestId = none) :
    runCommand m'.store requestId digest read.id expected command = none := by
  obtain ⟨row, present, since⟩ := run_climbs ends ⟨read, found, .inr ⟨rfl, Nat.le_refl _⟩⟩ ran
  by_contra accepted
  obtain ⟨t, done⟩ := Option.ne_none_iff_exists'.mp accepted
  obtain ⟨-, known⟩ | ⟨_, _, -, loaded, sequence, -⟩ := runCommand_some done
  · rw [fresh] at known
    cases known
  · obtain rfl := Option.mem_unique loaded present
    omega

/-- The run was cancelled, and the screen that showed it before cancels again. -/
theorem stale_command_refused_again :
    ∃ m, Theory.run (step plainDigests) empty [.create guardedRun 1, .control cancelRun] = some m ∧
      controlRun m.store { cancelRun with requestId := "again".toList } = none := by
  have runs : ((Theory.run (step plainDigests) empty
      [.create guardedRun 1, .control cancelRun]).bind fun m =>
        (m.store.run? 1).map fun read => decide (read.id = 1 ∧ (0 : Int) < read.controlSequence ∧
          m.store.receipt? "again".toList = none)) = some true := by
    decide +kernel
  obtain ⟨m, ran, runs⟩ := of_bind runs
  obtain ⟨read, found, facts⟩ := of_map runs
  obtain ⟨id, stale, fresh⟩ := of_decide_eq_true facts
  have now : Theory.run (step plainDigests) m [] = some m := rfl
  refine ⟨m, ran, ?_⟩
  rw [controlRun, show cancelRun.runId = read.id from id.symm]
  exact stale_command_refused (by simp) (id ▸ found) stale now fresh

end RunMachine

end Alera.Orchestration
