/-
# Alera.Automation.AutomationRuns -- the runs of an automation, saved by many callers

`automation_run_store.rs` and `automation_run_lifecycle_store.rs`: every operation on a
run reads it, edits the copy it has read and hands the copy to `save_automation_run`,
which reads the run again, refuses to change a final status and then writes in a
transaction of its own.  So there are three atomic steps, and other callers come in
between: `call` reads and edits, `check` is the second read, `write` the transaction.

The columns that the row and its JSON share are kept twice, as in the table, and read
from the columns (`decodeRun`).  Attempts, audit events, cleanup intents and the
archiving of one-time automations, which an operation writes after its save or beside
it, are left out; a trigger or an error that rolls the transaction back is the event
`abandon`.
-/
import Alera.Cloud.Sessions
import Alera.Theory.Runs

namespace Alera.Automation

open Theory Tables

set_option autoImplicit false

abbrev Text := List Char

abbrev Time := Nat

/-! ## Rows -/

/-- `AutomationRunStatus`. -/
inductive RunStatus where
  | pending
  | precheckSkipped
  | misfireSkipped
  | overlapSkipped
  | queueLimitSkipped
  | dispatching
  | dispatched
  | waitingForUser
  | success
  | failure
  | blocked
  | timeout
  | cancelled
  deriving DecidableEq

namespace RunStatus

/-- `as_str`. -/
def asStr : RunStatus → Text
  | .pending => "pending".toList
  | .precheckSkipped => "precheckSkipped".toList
  | .misfireSkipped => "misfireSkipped".toList
  | .overlapSkipped => "overlapSkipped".toList
  | .queueLimitSkipped => "queueLimitSkipped".toList
  | .dispatching => "dispatching".toList
  | .dispatched => "dispatched".toList
  | .waitingForUser => "waitingForUser".toList
  | .success => "success".toList
  | .failure => "failure".toList
  | .blocked => "blocked".toList
  | .timeout => "timeout".toList
  | .cancelled => "cancelled".toList

/-- `from_db`: any other text is read as pending. -/
def fromDb (value : Text) : RunStatus :=
  if value = "precheckSkipped".toList then .precheckSkipped
  else if value = "misfireSkipped".toList then .misfireSkipped
  else if value = "overlapSkipped".toList then .overlapSkipped
  else if value = "queueLimitSkipped".toList then .queueLimitSkipped
  else if value = "dispatching".toList then .dispatching
  else if value = "dispatched".toList then .dispatched
  else if value = "waitingForUser".toList then .waitingForUser
  else if value = "success".toList then .success
  else if value = "failure".toList then .failure
  else if value = "blocked".toList then .blocked
  else if value = "timeout".toList then .timeout
  else if value = "cancelled".toList then .cancelled
  else .pending

/-- `is_final`. -/
def isFinal : RunStatus → Bool
  | .precheckSkipped | .misfireSkipped | .overlapSkipped | .queueLimitSkipped | .success | .failure
  | .blocked | .timeout | .cancelled => true
  | .pending | .dispatching | .dispatched | .waitingForUser => false

/-- What is written is read back. -/
theorem fromDb_asStr (status : RunStatus) : fromDb status.asStr = status := by
  cases status <;> decide +kernel

end RunStatus

/-- `AutomationRun`, as far as the operations read or write it; `recovery` is the status text of
`AutomationRecovery`. -/
structure AutomationRun where
  id : Text
  status : RunStatus
  summary : Option Text
  error : Option Text
  recovery : Option Text
  lastActivityAt : Option Time
  lastHeartbeatAt : Option Time
  absoluteDeadlineAt : Option Time
  waitingExtensionUntil : Option Time
  cancelRequestedAt : Option Time
  takenOver : Bool
  retryAfter : Option Time
  finishedAt : Option Time
  updatedAt : Time
  deriving DecidableEq

/-- A row of `automationRuns`. -/
structure AutomationRunRow where
  id : Text
  status : Text
  /-- `dataJson`. -/
  data : AutomationRun
  updatedAt : Time
  finishedAt : Option Time
  deriving DecidableEq

/-- `decode_run`. -/
def decodeRun (row : AutomationRunRow) : AutomationRun :=
  { row.data with
    status := .fromDb row.status
    updatedAt := row.updatedAt
    finishedAt := row.finishedAt }

/-- `find_automation_run`. -/
def findAutomationRun (rows : List AutomationRunRow) (id : Text) : Option AutomationRun :=
  (lookup AutomationRunRow.id id rows).map decodeRun

/-! ## Saving -/

def runNotFound (id : Text) : Text := "automation run not found: ".toList ++ id

def alreadyFinal (id : Text) : Text := "automation run is already final: ".toList ++ id

def notWaiting (id : Text) : Text := "automation run is not waiting for user input: ".toList ++ id

/-- The check of `save_automation_run`, on the run that it has read. -/
def checkSave (existing : Option AutomationRun) (run : AutomationRun) : Except Text AutomationRun :=
  match existing with
  | none => .error (runNotFound run.id)
  | some existing =>
    if existing.status.isFinal && existing.status ≠ run.status then .error (alreadyFinal run.id)
    else .ok existing

/-- The columns that a save writes. -/
def AutomationRunRow.write (run : AutomationRun) (row : AutomationRunRow) : AutomationRunRow :=
  { row with
    status := run.status.asStr
    data := run
    updatedAt := run.updatedAt
    finishedAt := run.finishedAt }

open AutomationRunRow (write)

/-- The transaction of `save_automation_run`, which reads the run back; `none` when the row has gone. -/
def writeRun (rows : List AutomationRunRow) (run : AutomationRun) : Option (List AutomationRunRow) :=
  let written := updateWhere rows (·.id = run.id) (write run)
  (findAutomationRun written run.id).map fun _ => written

section Reading

variable {rows : List AutomationRunRow} (run : AutomationRun)

theorem decodeRun_write (row : AutomationRunRow) : decodeRun (row.write run) = run := by
  rw [decodeRun, write, RunStatus.fromDb_asStr]

theorem find_updated (id : Text) :
    findAutomationRun (updateWhere rows (·.id = run.id) (write run)) id =
      if id = run.id then (findAutomationRun rows id).map fun _ => run else findAutomationRun rows id := by
  have keepsId : ∀ row : AutomationRunRow, (row.write run).id = row.id := fun _ => rfl
  rw [findAutomationRun, lookup_updateWhere keepsId, findAutomationRun]
  split
  · rw [Option.map_map, Option.map_map]
    exact congrArg (Option.map · _) (funext (decodeRun_write run))
  · rfl

/-- A save replaces the run, and no other. -/
theorem find_writeRun (id : Text) :
    findAutomationRun ((writeRun rows run).getD rows) id =
      if id = run.id then (findAutomationRun rows id).map fun _ => run else findAutomationRun rows id := by
  rw [writeRun]
  cases stored : findAutomationRun (updateWhere rows (·.id = run.id) (write run)) run.id with
  | some saved => exact find_updated run id
  | none =>
    rw [find_updated, if_pos rfl, Option.map_eq_none_iff] at stored
    show findAutomationRun rows id = _
    split
    · rename_i here
      rw [here, stored, Option.map_none]
    · rfl

theorem nodup_writeRun (unique : (rows.map AutomationRunRow.id).Nodup) :
    (((writeRun rows run).getD rows).map AutomationRunRow.id).Nodup := by
  have keepsId : ∀ row : AutomationRunRow, (row.write run).id = row.id := fun _ => rfl
  rw [writeRun]
  cases findAutomationRun (updateWhere rows (·.id = run.id) (write run)) run.id with
  | some saved =>
    show ((updateWhere rows _ _).map AutomationRunRow.id).Nodup
    rw [map_updateWhere keepsId]
    exact unique
  | none => exact unique

end Reading

/-! ## Operations -/

/-- What an operation does with the run it has read. -/
inductive Reply where
  /-- The run is answered as it is. -/
  | answer (run : AutomationRun)
  | save (run : AutomationRun)
  deriving DecidableEq

section Operations

variable (id : Text) (now : Time) (found : Option AutomationRun)

/-- `complete_automation_run`. -/
def completeAutomationRun (status : RunStatus) (summary error : Option Text) : Except Text Reply :=
  if status ≠ .success ∧ status ≠ .failure ∧ status ≠ .blocked then
    .error "automation complete requires success, failure, or blocked".toList
  else if summary.all fun value => (Cloud.trim value).isEmpty then
    .error "automation completion summary is required".toList
  else
    match found with
    | none => .error (runNotFound id)
    | some run =>
      if run.status.isFinal then .ok (.answer run)
      else .ok (.save { run with status, summary, error, finishedAt := some now, updatedAt := now })

/-- `heartbeat_automation_run`. -/
def heartbeatAutomationRun : Except Text Reply :=
  match found with
  | none => .error (runNotFound id)
  | some run =>
    if run.status.isFinal then .error (alreadyFinal id)
    else
      .ok (.save
        { run with
          lastHeartbeatAt := some now
          lastActivityAt := some now
          recovery := none
          updatedAt := now })

/-- `set_automation_run_waiting`. -/
def setAutomationRunWaiting (waiting : Bool) : Except Text Reply :=
  match found with
  | none => .error (runNotFound id)
  | some run =>
    if run.status.isFinal then .error (alreadyFinal id)
    else if !waiting && run.status ≠ .waitingForUser then .error (notWaiting id)
    else
      .ok (.save
        { run with
          status := if waiting then .waitingForUser else .dispatched
          updatedAt := now })

/-- `extend_waiting_automation_run`. -/
def extendWaitingAutomationRun (untilTime : Time) : Except Text Reply :=
  match found with
  | none => .error (runNotFound id)
  | some run =>
    if run.status ≠ .waitingForUser then .error (notWaiting id)
    else
      .ok (.save
        { run with
          waitingExtensionUntil := some untilTime
          absoluteDeadlineAt := some (run.absoluteDeadlineAt.elim untilTime (max · untilTime))
          updatedAt := now })

/-- `request_automation_cancel`, which reads the clock twice. -/
def requestAutomationCancel (requestedAt : Time) : Except Text Reply :=
  match found with
  | none => .error (runNotFound id)
  | some run =>
    if run.status.isFinal then .ok (.answer run)
    else
      .ok (.save
        { run with
          cancelRequestedAt := some (run.cancelRequestedAt.getD requestedAt)
          updatedAt := now })

/-- `mark_automation_run_taken_over`. -/
def markAutomationRunTakenOver : Except Text Reply :=
  match found with
  | none => .error (runNotFound id)
  | some run =>
    if run.status.isFinal || run.takenOver then .ok (.answer run)
    else
      .ok (.save
        { run with
          takenOver := true
          recovery := run.recovery.map fun _ => "stoppedByTakeover".toList
          retryAfter := none
          updatedAt := now })

/-- `update_automation_run_status`, which leaves the check to the save. -/
def updateAutomationRunStatus (status : RunStatus) (error : Option Text) : Except Text Reply :=
  match found with
  | none => .error (runNotFound id)
  | some run =>
    .ok (.save
      { run with
        status
        error
        updatedAt := now
        finishedAt := if status.isFinal then some now else run.finishedAt })

/-- `schedule_automation_retry`. -/
def scheduleAutomationRetry (retryAfter : Time) (error : Text) : Except Text Reply :=
  match found with
  | none => .error (runNotFound id)
  | some run =>
    if run.status.isFinal then .error (alreadyFinal id)
    else
      .ok (.save
        { run with
          status := .pending
          recovery := run.recovery.map fun _ => "waitingBackoff".toList
          error := some error
          retryAfter := some retryAfter
          finishedAt := none
          updatedAt := now })

end Operations

inductive Operation where
  | complete (id : Text) (status : RunStatus) (summary error : Option Text)
  | heartbeat (id : Text)
  | setWaiting (id : Text) (waiting : Bool)
  | extendWaiting (id : Text) (untilTime : Time)
  | requestCancel (id : Text) (requestedAt : Time)
  | markTakenOver (id : Text)
  | updateStatus (id : Text) (status : RunStatus) (error : Option Text)
  | scheduleRetry (id : Text) (retryAfter : Time) (error : Text)
  /-- A caller of `save_automation_run` itself. -/
  | save (run : AutomationRun)

/-- An operation up to its save, on the rows that its read finds. -/
def Operation.start (rows : List AutomationRunRow) (now : Time) : Operation → Except Text Reply
  | .complete id status summary error =>
    completeAutomationRun id now (findAutomationRun rows id) status summary error
  | .heartbeat id => heartbeatAutomationRun id now (findAutomationRun rows id)
  | .setWaiting id waiting => setAutomationRunWaiting id now (findAutomationRun rows id) waiting
  | .extendWaiting id untilTime => extendWaitingAutomationRun id now (findAutomationRun rows id) untilTime
  | .requestCancel id requestedAt => requestAutomationCancel id now (findAutomationRun rows id) requestedAt
  | .markTakenOver id => markAutomationRunTakenOver id now (findAutomationRun rows id)
  | .updateStatus id status error =>
    updateAutomationRunStatus id now (findAutomationRun rows id) status error
  | .scheduleRetry id retryAfter error =>
    scheduleAutomationRetry id now (findAutomationRun rows id) retryAfter error
  | .save run => .ok (.save run)

/-! ## Callers -/

/-- A caller inside `save_automation_run`. -/
inductive Call where
  /-- The run is about to be checked. -/
  | saving (run : AutomationRun)
  /-- The check has read `existing`, and the transaction is next. -/
  | checked (existing run : AutomationRun)
  deriving DecidableEq

structure RunTable where
  rows : List AutomationRunRow
  /-- The primary key. -/
  unique : (rows.map AutomationRunRow.id).Nodup
  calls : Nat → Option Call

inductive RunEvent where
  | call (caller : Nat) (operation : Operation) (now : Time)
  | check (caller : Nat)
  | write (caller : Nat)
  /-- The caller's transaction is rolled back, or the caller is gone. -/
  | abandon (caller : Nat)
  /-- `prune_automation_runs`, which deletes some of the final runs. -/
  | prune (ids : List Text)

/-- A final run that is named is deleted. -/
def AutomationRunRow.survives (ids : List Text) (row : AutomationRunRow) : Bool :=
  !(ids.contains row.id && (RunStatus.fromDb row.status).isFinal)

namespace RunTable

def find? (m : RunTable) (id : Text) : Option AutomationRun := findAutomationRun m.rows id

def setCall (m : RunTable) (caller : Nat) (call : Option Call) : RunTable :=
  { m with calls := Function.update m.calls caller call }

def step (m : RunTable) : RunEvent → Option RunTable
  | .call caller operation now => do
      guard (m.calls caller).isNone
      match operation.start m.rows now with
      | .ok (.save run) => return m.setCall caller (some (.saving run))
      | .ok (.answer _) | .error _ => return m
  | .check caller =>
    match m.calls caller with
    | some (.saving run) =>
      match checkSave (m.find? run.id) run with
      | .ok existing => some (m.setCall caller (some (.checked existing run)))
      | .error _ => some (m.setCall caller none)
    | some (.checked ..) | none => none
  | .write caller =>
    match m.calls caller with
    | some (.checked _ run) =>
      some
        { (m.setCall caller none) with
          rows := (writeRun m.rows run).getD m.rows
          unique := nodup_writeRun run m.unique }
    | some (.saving _) | none => none
  | .abandon caller => some (m.setCall caller none)
  | .prune ids =>
    some
      { m with
        rows := m.rows.filter (·.survives ids)
        unique := m.unique.sublist (List.filter_sublist.map _) }

end RunTable

/-! ## Finished automation runs, and a save that comes too late

`save_automation_run` refuses to change a final status, but on a row that it has read
before its transaction; the transaction writes whatever the row holds by then.

* `finished_runs_stay`: in every interleaving in which no run is finished between the
  check of a save and its write (`timely`), a finished run keeps its status until it is
  pruned.
* `stale_heartbeat_reopens_run`: without that, a heartbeat puts a successful run back to
  work.

The invariant is `Settled`: a save that was checked against a final run writes the
status that this run still has.
-/

/-- A save that was checked against a final run leaves the status as it is. -/
def Call.Settled (m : RunTable) : Call → Prop
  | .saving _ => True
  | .checked existing run => existing.status.isFinal = true →
      run.status = existing.status ∧ ∀ stored, m.find? run.id = some stored → stored.status = existing.status

namespace RunTable

def Settled (m : RunTable) : Prop := ∀ caller call, m.calls caller = some call → call.Settled m

/-- When a save writes to a final run, the run that it was checked against was final. -/
def timely (m : RunTable) : RunEvent → Bool
  | .write caller => match m.calls caller with
      | some (.checked existing run) => !(m.find? run.id).any (·.status.isFinal) || existing.status.isFinal
      | some (.saving _) | none => true
  | .call .. | .check _ | .abandon _ | .prune _ => true

/-- No run appears, and finished runs keep their status. -/
def Keeps (m t : RunTable) : Prop :=
  ∀ id new, t.find? id = some new →
    ∃ old, m.find? id = some old ∧ (old.status.isFinal = true → new.status = old.status)

section Steps

variable {m t u : RunTable}

theorem Keeps.of_rows (rows : t.rows = m.rows) : Keeps m t := by
  intro id new found
  rw [find?, rows] at found
  exact ⟨new, found, fun _ => rfl⟩

theorem Keeps.trans (first : Keeps m t) (second : Keeps t u) : Keeps m u := by
  intro id new found
  obtain ⟨between, foundBetween, kept⟩ := second id new found
  obtain ⟨old, foundOld, kept'⟩ := first id between foundBetween
  refine ⟨old, foundOld, fun finished => ?_⟩
  have same : between.status = old.status := kept' finished
  rw [kept (same ▸ finished), same]

/-- What is settled stays so while finished runs keep their status. -/
theorem settled_of_keeps {call : Call} (settled : call.Settled m) (keeps : Keeps m t) : call.Settled t := by
  cases call with
  | saving run => trivial
  | checked existing run =>
    intro finished
    obtain ⟨same, stays⟩ := settled finished
    refine ⟨same, fun stored found => ?_⟩
    obtain ⟨old, foundOld, kept⟩ := keeps run.id stored found
    have status : old.status = existing.status := stays old foundOld
    rw [kept (status ▸ finished), status]

theorem Settled.setCall (settled : m.Settled) {caller : Nat} {call : Option Call}
    (new : ∀ new, call = some new → new.Settled m) : (m.setCall caller call).Settled :=
  -- the rows are the same, and so is what the other calls say about them
  forall_slots_update settled new

theorem Settled.drop (settled : m.Settled) (caller : Nat) : (m.setCall caller none).Settled :=
  settled.setCall fun _ isNew => by cases isNew

theorem checkSave_settled {run existing : AutomationRun}
    (checked : checkSave (m.find? run.id) run = .ok existing) : (Call.checked existing run).Settled m := by
  intro finished
  cases found : m.find? run.id with
  | none =>
    rw [found] at checked
    cases checked
  | some stored =>
    rw [found, checkSave] at checked
    split at checked
    · cases checked
    · rename_i allowed
      cases checked
      have same : existing.status = run.status := by
        by_contra differs
        exact allowed (by rw [finished, Bool.true_and, decide_eq_true differs])
      refine ⟨same.symm, fun other isStored => ?_⟩
      rw [Option.some.inj isStored]

/-- The write of a save that was checked in time. -/
theorem write_keeps {existing run : AutomationRun} (settled : (Call.checked existing run).Settled m)
    (inTime : (m.find? run.id).any (·.status.isFinal) = true → existing.status.isFinal = true)
    (rows : t.rows = (writeRun m.rows run).getD m.rows) : Keeps m t := by
  intro id new found
  rw [find?, rows, find_writeRun] at found
  split at found
  · rename_i here
    subst here
    obtain ⟨old, foundOld, rfl⟩ := of_map found
    have isOld : m.find? run.id = some old := foundOld
    refine ⟨old, foundOld, fun finished => ?_⟩
    obtain ⟨same, stays⟩ := settled (inTime (by rw [isOld, Option.any_some, finished]))
    rw [same, stays old foundOld]
  · exact ⟨new, found, fun _ => rfl⟩

theorem prune_keeps {ids : List Text} (rows : t.rows = m.rows.filter (·.survives ids)) : Keeps m t := by
  intro id new found
  obtain ⟨row, isRow, rfl⟩ := of_map found
  rw [rows] at isRow
  obtain ⟨member, rfl⟩ := lookup_some isRow
  exact ⟨decodeRun row, by rw [find?, findAutomationRun, lookup_of_mem m.unique (List.mem_of_mem_filter member), Option.map_some], fun _ => rfl⟩

/-- What a step does: one caller moves on, its run is written, or runs are pruned. -/
inductive Effect (m : RunTable) (event : RunEvent) (t : RunTable) : Prop where
  | moves (rows : t.rows = m.rows) (settled : m.Settled → t.Settled)
  | writes (caller : Nat) (existing run : AutomationRun) (isWrite : event = .write caller)
      (checked : m.calls caller = some (.checked existing run))
      (rows : t.rows = (writeRun m.rows run).getD m.rows)
      (calls : t.calls = (m.setCall caller none).calls)
  | prunes (ids : List Text) (isPrune : event = .prune ids)
      (rows : t.rows = m.rows.filter (·.survives ids)) (calls : t.calls = m.calls)

variable {event : RunEvent}

theorem step_effect (stepped : m.step event = some t) : Effect m event t := by
  cases event with
  | call caller operation now =>
    obtain ⟨-, -, done⟩ := of_bind stepped
    split at done
    · cases done
      exact .moves rfl fun settled => settled.setCall fun _ isNew => by cases isNew; trivial
    · cases done
      exact .moves rfl id
    · cases done
      exact .moves rfl id
  | check caller =>
    rw [step] at stepped
    split at stepped
    · split at stepped
      · rename_i existing checked
        cases stepped
        refine .moves rfl fun settled => settled.setCall fun _ isNew => ?_
        cases isNew
        exact checkSave_settled checked
      · cases stepped
        exact .moves rfl fun settled => settled.drop caller
    · cases stepped
    · cases stepped
  | write caller =>
    rw [step] at stepped
    split at stepped
    · rename_i existing run checked
      cases stepped
      exact .writes caller existing run rfl checked rfl rfl
    · cases stepped
    · cases stepped
  | abandon caller =>
    cases stepped
    exact .moves rfl fun settled => settled.drop caller
  | prune ids =>
    cases stepped
    exact .prunes ids rfl rfl rfl

theorem step_settled (settled : m.Settled) (timed : m.timely event = true)
    (stepped : m.step event = some t) : Keeps m t ∧ t.Settled := by
  cases step_effect stepped with
  | moves rows settles => exact ⟨.of_rows rows, settles settled⟩
  | writes caller existing run isWrite checked rows calls =>
    have inTime : (m.find? run.id).any (·.status.isFinal) = true → existing.status.isFinal = true := by
      rw [isWrite, timely, checked] at timed
      exact fun finished => by simpa [finished] using timed
    have keeps : Keeps m t := write_keeps (settled caller _ checked) inTime rows
    refine ⟨keeps, fun other call inFlight => settled_of_keeps ?_ keeps⟩
    rw [calls] at inFlight
    exact settled.drop caller other call inFlight
  | prunes ids isPrune rows calls =>
    have keeps : Keeps m t := prune_keeps rows
    refine ⟨keeps, fun caller call inFlight => settled_of_keeps ?_ keeps⟩
    rw [calls] at inFlight
    exact settled caller call inFlight

/-- A run is there until it is pruned. -/
theorem step_present {id : Text} (present : (m.find? id).isSome)
    (unnamed : ∀ ids, event = .prune ids → id ∉ ids) (stepped : m.step event = some t) :
    (t.find? id).isSome := by
  cases step_effect stepped with
  | moves rows _ =>
    rw [find?, rows]
    exact present
  | writes caller existing run isWrite checked rows calls =>
    rw [find?, rows, find_writeRun]
    split
    · rw [Option.isSome_map]
      exact present
    · exact present
  | prunes ids isPrune rows calls =>
    obtain ⟨row, found⟩ := Option.isSome_iff_exists.mp (Option.isSome_map ▸ present)
    obtain ⟨member, rfl⟩ := lookup_some found
    have survives : row.survives ids = true := by
      rw [AutomationRunRow.survives, List.contains_eq_mem, decide_eq_false (unnamed ids isPrune),
        Bool.false_and, Bool.not_false]
    have inside : row ∈ t.rows := by
      rw [rows]
      exact List.mem_filter.mpr ⟨member, survives⟩
    rw [find?, findAutomationRun, lookup_of_mem t.unique inside, Option.map_some, Option.isSome_some]

end Steps

/-- **Finished runs stay finished, as long as nobody finishes them between the check and the write of
a save.**  Whatever callers are under way, a run whose stored status is final keeps this status; it
is there until it is pruned. -/
theorem finished_runs_stay (s m t : RunTable) (idle : ∀ caller, s.calls caller = none)
    (before after : List RunEvent)
    (timed : Guarded step (fun m event => m.timely event = true) s (before ++ after))
    (ranBefore : Theory.run step s before = some m) (ranAfter : Theory.run step m after = some t) :
    ∀ id old, m.find? id = some old → old.status.isFinal = true →
      (∀ new, t.find? id = some new → new.status = old.status) ∧
      ((∀ ids, RunEvent.prune ids ∈ after → id ∉ ids) → (t.find? id).isSome) := by
  intro id old found finished
  obtain ⟨timedBefore, timedAfter⟩ := timed.append ranBefore
  have startSettled : s.Settled := fun caller call inFlight => by
    rw [idle caller] at inFlight
    cases inFlight
  have settled : m.Settled :=
    run_invariant_of_guarded Settled (fun _ _ _ settled timed stepped => (step_settled settled timed stepped).2)
      before s m timedBefore startSettled ranBefore
  have kept : Keeps m t ∧ t.Settled :=
    run_invariant_of_guarded (fun t => Keeps m t ∧ t.Settled)
      (fun _ _ _ ⟨keeps, settled⟩ timed stepped => by
        obtain ⟨keeps', settled'⟩ := step_settled settled timed stepped
        exact ⟨keeps.trans keeps', settled'⟩)
      after m t timedAfter ⟨.of_rows rfl, settled⟩ ranAfter
  constructor
  · intro new foundNew
    obtain ⟨old', found', same⟩ := kept.1 id new foundNew
    cases found.symm.trans found'
    exact same finished
  · intro unnamed
    let Unnamed (event : RunEvent) : Prop := ∀ ids, event = .prune ids → id ∉ ids
    have guarded : Guarded step (fun _ event => Unnamed event) m after := by
      refine guarded_of_forall (fun event member ids isPrune => ?_) m
      exact unnamed ids (isPrune ▸ member)
    refine run_invariant_of_guarded (fun t => (t.find? id).isSome)
      (fun _ _ _ present unnamed stepped => step_present present unnamed stepped) after m t guarded ?_ ranAfter
    rw [found, Option.isSome_some]

/-! ### A heartbeat and a completion at once -/

def workingRun : AutomationRun where
  id := "run".toList
  status := .dispatched
  summary := none
  error := none
  recovery := none
  lastActivityAt := none
  lastHeartbeatAt := none
  absoluteDeadlineAt := none
  waitingExtensionUntil := none
  cancelRequestedAt := none
  takenOver := false
  retryAfter := none
  finishedAt := none
  updatedAt := 0

def oneRun : RunTable where
  rows := [⟨"run".toList, "dispatched".toList, workingRun, 0, none⟩]
  unique := List.nodup_singleton _
  calls _ := none

/-- Caller 1 completes the run. -/
def completeRun : List RunEvent :=
  [.call 1 (.complete "run".toList .success (some "done".toList) none) 2, .check 1, .write 1]

/-- The heartbeat of caller 0 is checked after the completion, and refused. -/
theorem finished_runs_stay_completed :
    ∃ m t old, Theory.run step oneRun (.call 0 (.heartbeat "run".toList) 1 :: completeRun) = some m ∧
      Theory.run step m [.check 0] = some t ∧ m.find? "run".toList = some old ∧ old.status = .success ∧
      ∀ new, t.find? "run".toList = some new → new.status = .success := by
  have runs : ((Theory.run step oneRun (.call 0 (.heartbeat "run".toList) 1 :: completeRun)).bind fun m =>
      (Theory.run step m [.check 0]).bind fun _ => (m.find? "run".toList).map fun old =>
        decide (old.status = .success)) = some true := by
    decide +kernel
  obtain ⟨m, ranBefore, t, ranAfter, later⟩ := of_bind₂ runs
  obtain ⟨old, found, holds⟩ := of_map later
  have success : old.status = .success := of_decide_eq_true holds
  have timed : Guarded step (fun m event => m.timely event = true) oneRun
      ((.call 0 (.heartbeat "run".toList) 1 :: completeRun) ++ [.check 0]) := by
    decide +kernel
  have stays := finished_runs_stay oneRun m t (fun _ => rfl) _ _ timed ranBefore ranAfter
    "run".toList old found (by rw [success]; rfl)
  exact ⟨m, t, old, ranBefore, ranAfter, found, success, fun new foundNew => (stays.1 new foundNew).trans success⟩

/-- The heartbeat is checked before the completion and written after it: the run is at work again. -/
theorem stale_heartbeat_reopens_run :
    ∃ m t old new,
      Theory.run step oneRun (.call 0 (.heartbeat "run".toList) 1 :: .check 0 :: completeRun) = some m ∧
      Theory.run step m [.write 0] = some t ∧ m.find? "run".toList = some old ∧
      old.status = .success ∧ old.status.isFinal = true ∧
      t.find? "run".toList = some new ∧ new.status = .dispatched := by
  have runs : ((Theory.run step oneRun
      (.call 0 (.heartbeat "run".toList) 1 :: .check 0 :: completeRun)).bind fun m =>
        (Theory.run step m [.write 0]).bind fun t => (m.find? "run".toList).bind fun old =>
          (t.find? "run".toList).map fun new =>
            decide (old.status = .success ∧ new.status = .dispatched)) = some true := by
    decide +kernel
  obtain ⟨m, ranBefore, t, ranAfter, later⟩ := of_bind₂ runs
  obtain ⟨old, foundOld, later⟩ := of_bind later
  obtain ⟨new, foundNew, holds⟩ := of_map later
  obtain ⟨success, dispatched⟩ := of_decide_eq_true holds
  exact ⟨m, t, old, new, ranBefore, ranAfter, foundOld, success, by rw [success]; rfl, foundNew, dispatched⟩

end RunTable

end Alera.Automation
