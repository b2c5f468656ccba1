/-
# Alera.Cloud.EventDelivery -- event delivery and replay as a system of workers and requests

Ingestion, fan-out, claims, deliveries and subscriptions in any interleaving, one
statement or transaction a step.  A batch is stamped when it is received and inserted
later; a claim takes its rows in one statement and reads them, cursor anchors
included, in the next; a stop and the `finish` after it are two steps; a refresh
reactivates its subscription in one and backfills in another.

Events are only ever added (`Grows`), so whoever remembers tables that were read
earlier still knows when the events in them were received.  The history keeps, for
each body that was sent, the tables its cursor was computed in.  `Sound` collects what
holds in every reachable state.
-/
import Alera.Theory.Runs
import Alera.Cloud.Sessions

namespace Alera.Cloud.Events

open Theory List Theory.Tables

set_option autoImplicit false

/-! ## Events, subscriptions and their deliveries

The statements of `cloud/src/events`: `insert_events` of `ingest.rs`,
`fan_out_pending` and `backfill` of `fanout.rs`, the upsert of `subscribe` in
`mcp_subscriptions.rs`, and `claim`, `deliver`, `settle`, `finish` and
`stop_subscription` of `delivery.rs`, with the anchors of `cursor.rs`.  One
definition is one statement or one transaction, or a decision between two of them.

`FOR UPDATE SKIP LOCKED` lets a worker pass over rows that another holds, so the
rows a statement picks are an argument; what it may pick is checked.  New row ids
are arguments too.  MCP Control and the grants' reach are an `Access`; events reach
`insert_events` projected by the catalog.
-/

abbrev Text := List Char

def seconds (n : Nat) : Time := n * 1000000

/-- `RETENTION`. -/
def retention : Time := days 1

/-- `LEASE`. -/
def lease : Time := seconds 45

/-- `FAN_OUT_BATCH`. -/
def fanOutBatch : Nat := 500

/-- `CLAIM_BATCH`. -/
def claimBatch : Nat := 16

/-- `MAX_ATTEMPTS`. -/
def maxAttempts : Nat := 12

/-- `SUBSCRIPTION_EXPIRED`. -/
def subscriptionExpired : Text := "subscription_expired".toList

/-- `SUBSCRIPTION_INACTIVE`. -/
def subscriptionInactive : Text := "subscription_inactive".toList

/-! ## Tables -/

/-- A row of `domain_events`.  `data` holds the text `->>` gives for each key. -/
structure EventRow where
  id : Uuid
  accountId : Uuid
  runtimeId : Text
  eventId : Text
  seq : Nat
  kind : Text
  workspaceId : Option Text
  projectId : Option Text
  data : List (Text × Text)
  occurredAt : Time
  receivedAt : Time
  fannedOutAt : Option Time
  deriving DecidableEq

inductive TargetKind where
  | webhook
  | mcpEvents
  deriving DecidableEq

inductive SubscriptionStatus where
  | active
  | stopped
  | revoked
  | expired
  deriving DecidableEq

structure SubscriptionRow where
  id : Text
  accountId : Uuid
  targetKind : TargetKind
  callbackUrl : Text
  kinds : List Text
  runtimeIds : List Text
  allRuntimes : Bool
  status : SubscriptionStatus
  refreshBefore : Option Time
  ownerGrantId : Option Uuid
  filter : List (Text × Text)
  createdAt : Time
  deriving DecidableEq

inductive DeliveryStatus where
  | pending
  | sending
  | delivered
  | stopped
  | dead
  deriving DecidableEq

/-- `status IN ('pending', 'sending')`. -/
def DeliveryStatus.waiting : DeliveryStatus → Bool
  | .pending | .sending => true
  | .delivered | .stopped | .dead => false

structure DeliveryRow where
  id : Uuid
  subscriptionId : Text
  eventId : Uuid
  status : DeliveryStatus
  attempts : Nat
  nextAttemptAt : Time
  lastError : Option Text
  deriving DecidableEq

/-- The unique key of deliveries. -/
def DeliveryRow.pair (row : DeliveryRow) : Text × Uuid := (row.subscriptionId, row.eventId)

structure EventTables where
  events : List EventRow
  subscriptions : List SubscriptionRow
  deliveries : List DeliveryRow
  deriving DecidableEq

/-- What statements read of `runtimes` and `mcp_grants`. -/
structure Access where
  /-- The runtimes whose MCP Control is not `off`. -/
  runtimeAllowed : Text → Bool
  /-- The runtimes that an unrevoked grant reaches. -/
  grantReaches : Uuid → Text → Bool

/-! ## Matching -/

/-- What a filter key is compared with. -/
def EventRow.filterField (event : EventRow) (key : Text) : Option Text :=
  if key = "workspaceId".toList then event.workspaceId
  else if key = "projectId".toList then event.projectId
  else event.data.lookup key

/-- The grant clause of an MCP Events subscription. -/
def Access.authorized (access : Access) (subscription : SubscriptionRow) (runtimeId : Text) : Bool :=
  subscription.ownerGrantId.any fun grant => access.grantReaches grant runtimeId

/-- `MATCH`. -/
def eventMatch (access : Access) (mcpEventsEnabled : Bool) (now : Time)
    (subscription : SubscriptionRow) (event : EventRow) : Bool :=
  subscription.accountId = event.accountId &&
    subscription.status = .active &&
    subscription.refreshBefore.all (now < ·) &&
    subscription.kinds.contains event.kind &&
    (subscription.allRuntimes || subscription.runtimeIds.contains event.runtimeId) &&
    subscription.filter.all (fun (key, value) => event.filterField key = some value) &&
    (subscription.targetKind = .webhook ||
      (mcpEventsEnabled && access.runtimeAllowed event.runtimeId &&
        access.authorized subscription event.runtimeId))

/-! ## Ingestion -/

/-- `insert_events`: a repeated event is skipped, a repeated row id fails the statement. -/
def insertEvents (rows : List EventRow) : List EventRow → Option (List EventRow)
  | [] => some rows
  | new :: rest =>
    if rows.any fun row => row.runtimeId = new.runtimeId && row.eventId = new.eventId then
      insertEvents rows rest
    else if rows.any (·.id = new.id) then none
    else insertEvents (rows ++ [new]) rest

/-! ## Queueing deliveries -/

/-- `INSERT INTO event_deliveries … ON CONFLICT (subscription_id, event_id)`, row by row. -/
def insertDeliveries (onConflict : DeliveryRow → DeliveryRow) (rows : List DeliveryRow) :
    List DeliveryRow → Option (List DeliveryRow)
  | [] => some rows
  | new :: rest =>
    if rows.any (·.pair = new.pair) then
      insertDeliveries onConflict (updateWhere rows (·.pair = new.pair) onConflict) rest
    else if rows.any (·.id = new.id) then none
    else insertDeliveries onConflict (rows ++ [new]) rest

/-- The row both fan-out and backfill insert. -/
def queued (newId : Text → Uuid → Uuid) (now : Time) (subscription : SubscriptionRow)
    (event : EventRow) : DeliveryRow where
  id := newId subscription.id event.id
  subscriptionId := subscription.id
  eventId := event.id
  status := .pending
  attempts := 0
  nextAttemptAt := now
  lastError := none

def EventRow.fanOut (now : Time) (event : EventRow) : EventRow := { event with fannedOutAt := some now }

/-- `fan_out_pending`, for the events it picked. -/
def fanOutPending (db : EventTables) (access : Access) (mcpEventsEnabled : Bool) (now : Time)
    (picked : List Uuid) (newId : Text → Uuid → Uuid) : Option EventTables :=
  let claimed (event : EventRow) : Bool := event.fannedOutAt.isNone && picked.contains event.id
  let marked := db.events.filter fun event => claimed event && now < event.receivedAt + retention
  let rows := marked.flatMap fun event =>
    (db.subscriptions.filter (eventMatch access mcpEventsEnabled now · event)).map
      (queued newId now · event)
  if fanOutBatch < picked.length then none
  else
    (insertDeliveries id db.deliveries rows).map fun deliveries =>
      { db with events := updateWhere db.events claimed (EventRow.fanOut now), deliveries }

/-- The deliveries that a refresh queues again. -/
def DeliveryRow.resumable (row : DeliveryRow) : Bool :=
  row.status = .stopped && row.lastError = some subscriptionExpired

/-- The `DO UPDATE` of `backfill`. -/
def DeliveryRow.requeue (now : Time) (row : DeliveryRow) : DeliveryRow :=
  if row.resumable then
    { row with status := .pending, attempts := 0, nextAttemptAt := now, lastError := none }
  else row

/-- The events `backfill` selects for a subscription. -/
def replayed (db : EventTables) (access : Access) (mcpEventsEnabled : Bool) (now since : Time)
    (subscription : SubscriptionRow) : List EventRow :=
  db.events.filter fun event =>
    max since (now - retention) ≤ event.receivedAt &&
      eventMatch access mcpEventsEnabled now subscription event

def backfill (db : EventTables) (access : Access) (mcpEventsEnabled : Bool) (now : Time)
    (subscriptionId : Text) (since : Time) (newId : Text → Uuid → Uuid) : Option EventTables :=
  let rows := (db.subscriptions.filter (·.id = subscriptionId)).flatMap fun subscription =>
    (replayed db access mcpEventsEnabled now since subscription).map (queued newId now subscription)
  (insertDeliveries (DeliveryRow.requeue now) db.deliveries rows).map fun deliveries =>
    { db with deliveries }

/-! ## Cursors -/

/-- `Anchor`: what a cursor's text carries, in milliseconds. -/
structure Anchor where
  v : Nat
  since : Nat
  deriving DecidableEq

namespace Cursor

def encode (since : Time) : Anchor := ⟨1, since / 1000⟩

def decode (anchor : Anchor) (now : Time) : Option Time :=
  let since := anchor.since * 1000
  if anchor.v = 1 && since ≤ now + minutes 1 then some since else none

theorem decode_some {anchor : Anchor} {now decoded : Time}
    (valid : decode anchor now = some decoded) : decoded = anchor.since * 1000 := by
  rw [decode] at valid
  split at valid
  · exact (Option.some.inj valid).symm
  · cases valid

end Cursor

/-! ## Claiming -/

/-- What the claim's first statement may pick. -/
def due (db : EventTables) (mcpEventsEnabled : Bool) (now : Time) (row : DeliveryRow) : Bool :=
  row.status.waiting && row.nextAttemptAt ≤ now &&
    (mcpEventsEnabled || !db.subscriptions.any fun subscription =>
      subscription.id = row.subscriptionId && subscription.targetKind = .mcpEvents)

def DeliveryRow.claim (now : Time) (row : DeliveryRow) : DeliveryRow :=
  { row with status := .sending, attempts := row.attempts + 1, nextAttemptAt := now + lease }

/-- The first statement of `claim`: takes the due rows it picked and returns their ids. -/
def claimDue (db : EventTables) (mcpEventsEnabled : Bool) (now : Time) (picked : List Uuid) :
    List Uuid × EventTables :=
  let taken (row : DeliveryRow) : Bool :=
    due db mcpEventsEnabled now row && (picked.take claimBatch).contains row.id
  ((db.deliveries.filter taken).map (·.id),
    { db with deliveries := updateWhere db.deliveries taken (DeliveryRow.claim now) })

/-- The receive times of the events a subscription still waits for. -/
def waitingTimes (db : EventTables) (subscriptionId : Text) : List Time :=
  (db.deliveries.filter fun row => row.subscriptionId = subscriptionId && row.status.waiting).filterMap
    fun row => (lookup EventRow.id row.eventId db.events).map (·.receivedAt)

structure Claimed where
  id : Uuid
  attempts : Nat
  subscriptionId : Text
  targetKind : TargetKind
  callbackUrl : Text
  status : SubscriptionStatus
  refreshBefore : Option Time
  authorized : Bool
  runtimeAllowed : Bool
  event : EventRow
  cursorAnchor : Option Time
  deriving DecidableEq

/-- The second statement of `claim`. -/
def readClaimed (db : EventTables) (access : Access) (ids : List Uuid) : List Claimed :=
  (db.deliveries.filter (ids.contains ·.id)).filterMap fun row => do
    let subscription ← lookup SubscriptionRow.id row.subscriptionId db.subscriptions
    let event ← lookup EventRow.id row.eventId db.events
    let webhook : Bool := subscription.targetKind = .webhook
    return {
      id := row.id
      attempts := row.attempts
      subscriptionId := subscription.id
      targetKind := subscription.targetKind
      callbackUrl := subscription.callbackUrl
      status := subscription.status
      refreshBefore := subscription.refreshBefore
      authorized := webhook || access.authorized subscription event.runtimeId
      runtimeAllowed := webhook || access.runtimeAllowed event.runtimeId
      event
      cursorAnchor := (waitingTimes db subscription.id).min? }

/-! ## Delivering -/

/-- The columns `finish` sets. -/
structure Finish where
  status : DeliveryStatus
  error : Option Text
  nextAttemptAt : Option Time
  deriving DecidableEq

/-- What a worker does next with a delivery it holds. -/
inductive Verdict where
  | finish (finish : Finish)
  | stop (status : SubscriptionStatus) (finish : Finish)
  | send
  deriving DecidableEq

def Finish.stopped (reason : Text) : Finish := ⟨.stopped, some reason, none⟩

def Finish.dead (reason : Text) : Finish := ⟨.dead, some reason, none⟩

/-- `deliver`, up to the request it sends. -/
def deliver (delivery : Claimed) (keysAvailable : Bool) (now : Time) : Verdict :=
  if delivery.event.receivedAt + retention ≤ now then .finish (.dead "expired".toList)
  else if delivery.status = .expired then .finish (.stopped subscriptionExpired)
  else if delivery.status ≠ .active then .finish (.stopped subscriptionInactive)
  else if delivery.refreshBefore.any (· ≤ now) then .stop .expired (.stopped subscriptionExpired)
  else if !delivery.authorized then .stop .revoked (.stopped subscriptionInactive)
  else if !delivery.runtimeAllowed then .finish (.stopped "runtime_mcp_disabled".toList)
  else if !keysAvailable then .finish (.dead "secret_unavailable".toList)
  else .send

/-- `event_body`. -/
structure EventBody where
  eventId : Text
  name : Text
  timestamp : Time
  runtimeId : Text
  workspaceId : Option Text
  projectId : Option Text
  seq : Nat
  data : List (Text × Text)
  cursor : Anchor
  deriving DecidableEq

/-- `TEST_EVENT_KIND`. -/
def testEventKind : Text := "alera.test".toList

def Claimed.body (delivery : Claimed) : EventBody where
  eventId := delivery.event.eventId
  name := delivery.event.kind
  timestamp := delivery.event.occurredAt
  runtimeId := delivery.event.runtimeId
  workspaceId := delivery.event.workspaceId
  projectId := delivery.event.projectId
  seq := delivery.event.seq
  data := if delivery.event.kind = testEventKind then [] else delivery.event.data
  cursor := Cursor.encode (delivery.cursorAnchor.getD delivery.event.receivedAt)

inductive CallbackError where
  | invalidUrl
  | dnsFailed
  | nonPublicDestination
  | timeout
  | connectionFailed
  | responseTooLarge
  | payloadTooLarge
  deriving DecidableEq

def CallbackError.reason : CallbackError → Text
  | .invalidUrl => "invalid_url".toList
  | .dnsFailed => "dns_failed".toList
  | .nonPublicDestination => "non_public_destination".toList
  | .timeout => "timeout".toList
  | .connectionFailed => "connection_failed".toList
  | .responseTooLarge => "response_too_large".toList
  | .payloadTooLarge => "payload_too_large".toList

def CallbackError.isPermanent : CallbackError → Bool
  | .invalidUrl | .nonPublicDestination | .payloadTooLarge => true
  | .dnsFailed | .timeout | .connectionFailed | .responseTooLarge => false

inductive Outcome where
  | delivered (status : Nat)
  | retry (reason : Text)
  | dead (reason : Text)
  | gone
  deriving DecidableEq

def httpReason (status : Nat) : Text := "http_".toList ++ Nat.toDigits 10 status

def classify : Except CallbackError Nat → Outcome
  | .ok status =>
    if 200 ≤ status && status < 300 then .delivered status
    else if status = 410 then .gone
    else if status = 408 || status = 425 || status = 429 then .retry (httpReason status)
    else if 500 ≤ status then .retry (httpReason status)
    else .dead (httpReason status)
  | .error error => if error.isPermanent then .dead error.reason else .retry error.reason

/-- `retry_delay`. -/
def retryDelay (attempts : Nat) : Time := min (seconds 5 * 2 ^ min (attempts - 1) 16) (minutes 15)

/-- `settle`. -/
def settle (delivery : Claimed) (outcome : Outcome) (now : Time) : Verdict :=
  match outcome with
  | .delivered _ => .finish ⟨.delivered, none, none⟩
  | .gone => .stop .stopped (.stopped (httpReason 410))
  | .dead reason => .finish (.dead reason)
  | .retry reason =>
    let next := now + retryDelay delivery.attempts
    if maxAttempts ≤ delivery.attempts || delivery.event.receivedAt + retention ≤ next then
      .finish (.dead reason)
    else .finish ⟨.pending, some reason, some next⟩

def DeliveryRow.finish (columns : Finish) (row : DeliveryRow) : DeliveryRow :=
  { row with
    status := columns.status
    lastError := columns.error
    nextAttemptAt := columns.nextAttemptAt.getD row.nextAttemptAt }

/-- `finish`: only while the worker still holds the row. -/
def finish (db : EventTables) (delivery : Claimed) (columns : Finish) : EventTables :=
  { db with
    deliveries := updateWhere db.deliveries
      (fun row => row.id = delivery.id && row.attempts = delivery.attempts && row.status = .sending)
      (DeliveryRow.finish columns) }

def SubscriptionRow.stop (status : SubscriptionStatus) (row : SubscriptionRow) : SubscriptionRow :=
  { row with status }

def DeliveryRow.stop (reason : Text) (row : DeliveryRow) : DeliveryRow :=
  { row with status := .stopped, lastError := some reason }

/-- `stop_subscription`. -/
def stopSubscription (db : EventTables) (subscriptionId : Text) (status : SubscriptionStatus) :
    EventTables :=
  let subscriptions := updateWhere db.subscriptions
    (fun row => row.id = subscriptionId && row.status = .active) (SubscriptionRow.stop status)
  let isExpired := subscriptions.any fun row => row.id = subscriptionId && row.status = .expired
  { db with
    subscriptions
    deliveries := updateWhere db.deliveries
      (fun row => row.subscriptionId = subscriptionId && row.status = .pending)
      (DeliveryRow.stop (if isExpired then subscriptionExpired else subscriptionInactive)) }

/-! ## Subscribing -/

/-- What the id of a subscription is a digest of. -/
structure SubscriptionIdentity where
  accountId : Uuid
  grantId : Uuid
  url : Text
  kind : Text
  arguments : List (Text × Text)
  deriving DecidableEq

/-- A parsed request.  `runtime` is the id the `runtime` argument was resolved to. -/
structure SubscribeInput where
  identity : SubscriptionIdentity
  runtime : Option Text
  cursor : Option Anchor
  ttlMs : Option Int
  deriving DecidableEq

/-- Where replay starts, or `none` for an invalid cursor. -/
def SubscribeInput.anchor (input : SubscribeInput) (now : Time) : Option Time :=
  match input.cursor with
  | some cursor => (Cursor.decode cursor now).map fun since => max since (now - retention)
  | none => some now

/-- The seconds a subscription lives without a refresh. -/
def lifetime (ttlMs : Option Int) : Nat :=
  (min (max ((ttlMs.map (Int.tdiv · 1000)).getD 86400) 60) 86400).toNat

/-- The upsert of `subscribe`. -/
def upsertSubscription (rows : List SubscriptionRow) (id : Text) (input : SubscribeInput)
    (now : Time) : List SubscriptionRow :=
  let new : SubscriptionRow :=
    { id
      accountId := input.identity.accountId
      targetKind := .mcpEvents
      callbackUrl := input.identity.url
      kinds := [input.identity.kind]
      runtimeIds := input.runtime.toList
      allRuntimes := input.runtime.isNone
      status := .active
      refreshBefore := some (now + seconds (lifetime input.ttlMs))
      ownerGrantId := some input.identity.grantId
      filter := input.identity.arguments.filter (·.1 ≠ "runtime".toList)
      createdAt := now }
  if rows.any (·.id = id) then
    updateWhere rows (·.id = id) fun row =>
      { row with
        runtimeIds := new.runtimeIds
        allRuntimes := new.allRuntimes
        filter := new.filter
        status := .active
        refreshBefore := new.refreshBefore }
  else rows ++ [new]

/-! ## The system -/

/-- An event of a batch, as `insert_events` prepares it. -/
structure EventInput where
  id : Uuid
  eventId : Text
  seq : Nat
  kind : Text
  workspaceId : Option Text
  projectId : Option Text
  data : List (Text × Text)
  occurredAt : Time
  deriving DecidableEq

def EventInput.row (accountId : Uuid) (runtimeId : Text) (now : Time) (input : EventInput) :
    EventRow where
  id := input.id
  accountId
  runtimeId
  eventId := input.eventId
  seq := input.seq
  kind := input.kind
  workspaceId := input.workspaceId
  projectId := input.projectId
  data := input.data
  occurredAt := input.occurredAt
  receivedAt := now
  fannedOutAt := none

/-- A request, a worker or one of its tasks between two steps.  `readIn` are the tables a claim
was read in. -/
inductive EventRequest where
  | ingesting (rows : List EventRow)
  | claiming (ids : List Uuid)
  | claimed (readIn : EventTables) (deliveries : List Claimed)
  | delivering (readIn : EventTables) (delivery : Claimed)
  | awaiting (delivery : Claimed)
  | stopping (delivery : Claimed) (status : SubscriptionStatus) (columns : Finish)
  | finishing (delivery : Claimed) (columns : Finish)
  | subscribing (input : SubscribeInput) (askedAt since : Time)
  | backfilling (subscriptionId : Text) (cursor : Anchor) (askedAt since : Time)
  deriving DecidableEq

/-- A body that was sent. -/
structure SentBody where
  subscriptionId : Text
  body : EventBody
  readIn : EventTables
  deriving DecidableEq

structure EventSystem where
  db : EventTables
  access : Access
  requests : Nat → Option EventRequest
  sent : List SentBody

inductive SystemEvent where
  | receive (request : Nat) (accountId : Uuid) (runtimeId : Text) (now : Time)
      (inputs : List EventInput)
  | insertEvents (request : Nat)
  | fanOut (mcpEventsEnabled : Bool) (now : Time) (picked : List Uuid) (newId : Text → Uuid → Uuid)
  | claim (request : Nat) (mcpEventsEnabled : Bool) (now : Time) (picked : List Uuid)
  | readClaimed (request : Nat)
  /-- A worker starts the task of the next delivery it claimed. -/
  | spawn (request task : Nat)
  | deliver (task : Nat) (keysAvailable : Bool) (now : Time)
  /-- The receiver answered, or could not be reached. -/
  | answer (task : Nat) (result : Except CallbackError Nat) (now : Time)
  | stopSubscription (task : Nat)
  | finish (task : Nat)
  | subscribe (request : Nat) (input : SubscribeInput) (now : Time)
  | upsert (request : Nat)
  | backfill (request : Nat) (mcpEventsEnabled : Bool) (now : Time) (newId : Text → Uuid → Uuid)
  /-- Grants and MCP Control change elsewhere. -/
  | setAccess (access : Access)
  /-- The request failed or its process died. -/
  | abandon (request : Nat)

/-- The state in which a worker takes its next step. -/
def Verdict.next (delivery : Claimed) : Verdict → EventRequest
  | .finish columns => .finishing delivery columns
  | .stop status columns => .stopping delivery status columns
  | .send => .awaiting delivery

namespace EventSystem

def init (access : Access) : EventSystem := ⟨⟨[], [], []⟩, access, fun _ => none, []⟩

def put (s : EventSystem) (id : Nat) (request : Option EventRequest) : EventSystem :=
  { s with requests := Function.update s.requests id request }

variable (subscriptionId : SubscriptionIdentity → Text)

def step (s : EventSystem) : SystemEvent → Option EventSystem
  | .receive id accountId runtimeId now inputs =>
    if (s.requests id).isSome then none
    else some (s.put id (some (.ingesting (inputs.map (EventInput.row accountId runtimeId now)))))
  | .insertEvents id =>
    match s.requests id with
    | some (.ingesting rows) =>
      (Events.insertEvents s.db.events rows).map fun events =>
        { s.put id none with db := { s.db with events } }
    | _ => none
  | .fanOut mcpEventsEnabled now picked newId =>
    (fanOutPending s.db s.access mcpEventsEnabled now picked newId).map fun db => { s with db }
  | .claim id mcpEventsEnabled now picked =>
    if (s.requests id).isSome then none
    else
      let (ids, db) := claimDue s.db mcpEventsEnabled now picked
      some { s.put id (if ids.isEmpty then none else some (.claiming ids)) with db }
  | .readClaimed id =>
    match s.requests id with
    | some (.claiming ids) =>
      some (s.put id (some (.claimed s.db (Events.readClaimed s.db s.access ids))))
    | _ => none
  | .spawn id task =>
    match s.requests id with
    | some (.claimed readIn (delivery :: rest)) =>
      if (s.requests task).isSome then none
      else
        some ((s.put id (some (.claimed readIn rest))).put task
          (some (.delivering readIn delivery)))
    | _ => none
  | .deliver task keysAvailable now =>
    match s.requests task with
    | some (.delivering readIn delivery) =>
      let verdict := Events.deliver delivery keysAvailable now
      let bodies := if verdict = .send then [⟨delivery.subscriptionId, delivery.body, readIn⟩] else []
      some { s.put task (some (verdict.next delivery)) with sent := s.sent ++ bodies }
    | _ => none
  | .answer task result now =>
    match s.requests task with
    | some (.awaiting delivery) =>
      some (s.put task (some ((settle delivery (classify result) now).next delivery)))
    | _ => none
  | .stopSubscription task =>
    match s.requests task with
    | some (.stopping delivery status columns) =>
      some { s.put task (some (.finishing delivery columns)) with
        db := Events.stopSubscription s.db delivery.subscriptionId status }
    | _ => none
  | .finish task =>
    match s.requests task with
    | some (.finishing delivery columns) =>
      some { s.put task none with db := Events.finish s.db delivery columns }
    | _ => none
  | .subscribe id input now =>
    if (s.requests id).isSome then none
    else (input.anchor now).map fun since => s.put id (some (.subscribing input now since))
  | .upsert id =>
    match s.requests id with
    | some (.subscribing input askedAt since) =>
      let row := subscriptionId input.identity
      some { s.put id (input.cursor.map fun cursor => .backfilling row cursor askedAt since) with
        db := { s.db with
          subscriptions := upsertSubscription s.db.subscriptions row input askedAt } }
    | _ => none
  | .backfill id mcpEventsEnabled now newId =>
    match s.requests id with
    | some (.backfilling row _ _ since) =>
      (Events.backfill s.db s.access mcpEventsEnabled now row since newId).map fun db =>
        { s.put id none with db }
    | _ => none
  | .setAccess access => some { s with access }
  | .abandon id => some (s.put id none)

end EventSystem

/-! ## Tables over time -/

/-- What never changes of an event. -/
def EventRow.stamp (event : EventRow) : Uuid × Time := (event.id, event.receivedAt)

/-- Every event of the first tables is in the second, received at the same time. -/
def Grows (before after : EventTables) : Prop :=
  before.events.map EventRow.stamp ⊆ after.events.map EventRow.stamp

theorem Grows.refl (db : EventTables) : Grows db db := List.Subset.refl _

theorem Grows.trans {first second third : EventTables} (before : Grows first second)
    (after : Grows second third) : Grows first third := List.Subset.trans before after

/-- The primary key of events, the unique key of deliveries and their reference to an event. -/
structure Keyed (db : EventTables) : Prop where
  events : (db.events.map EventRow.id).Nodup
  deliveries : (db.deliveries.map DeliveryRow.pair).Nodup
  references : ∀ pair ∈ db.deliveries.map DeliveryRow.pair, pair.2 ∈ db.events.map EventRow.id

/-- An event of older tables is received when the newer ones say. -/
theorem Grows.receivedAt_eq {before after : EventTables} (grows : Grows before after)
    (keyed : Keyed after) {old new : EventRow} (member : old ∈ before.events)
    (current : new ∈ after.events) (same : old.id = new.id) : old.receivedAt = new.receivedAt := by
  obtain ⟨found, listed, stamp⟩ := mem_map.mp (grows (mem_map_of_mem member))
  have sameId : found.id = old.id := congrArg Prod.fst stamp
  have sameTime : found.receivedAt = old.receivedAt := congrArg Prod.snd stamp
  have one : found = new := eq_of_key keyed.events listed current (sameId.trans same)
  rw [← sameTime, one]

section Statements

variable {db db' : EventTables} {access : Access} {mcpEventsEnabled : Bool} {now : Time}

theorem insertEvents_spec {rows new rows' : List EventRow}
    (inserted : insertEvents rows new = some rows') (unique : (rows.map EventRow.id).Nodup) :
    rows ⊆ rows' ∧ (rows'.map EventRow.id).Nodup := by
  induction new generalizing rows with
  | nil =>
    cases inserted
    exact ⟨List.Subset.refl _, unique⟩
  | cons first rest ih =>
    rw [insertEvents] at inserted
    split at inserted
    · exact ih inserted unique
    · obtain ⟨fresh, inserted⟩ := of_unless inserted
      have isNew : ∀ other ∈ rows, other.id ≠ first.id := by simpa using fresh
      obtain ⟨kept, keyed⟩ := ih inserted (nodup_append_singleton unique isNew)
      exact ⟨fun row member => kept (mem_append_left _ member), keyed⟩

variable {onConflict : DeliveryRow → DeliveryRow}

theorem insertDeliveries_spec
    (keeps : ∀ row, (onConflict row).pair = row.pair) {rows new rows' : List DeliveryRow}
    (inserted : insertDeliveries onConflict rows new = some rows')
    (unique : (rows.map DeliveryRow.pair).Nodup) :
    (rows'.map DeliveryRow.pair).Nodup ∧
      ∀ pair ∈ rows'.map DeliveryRow.pair,
        pair ∈ rows.map DeliveryRow.pair ∨ pair ∈ new.map DeliveryRow.pair := by
  induction new generalizing rows with
  | nil =>
    cases inserted
    exact ⟨unique, fun pair listed => .inl listed⟩
  | cons first rest ih =>
    rw [insertDeliveries] at inserted
    split at inserted
    · have same : (updateWhere rows (·.pair = first.pair) onConflict).map DeliveryRow.pair =
          rows.map DeliveryRow.pair := map_updateWhere keeps
      obtain ⟨keyed, pairs⟩ := ih inserted (by rwa [same])
      rw [same] at pairs
      exact ⟨keyed, fun pair listed => (pairs pair listed).imp_right (mem_cons_of_mem _)⟩
    · rename_i absent
      have isNew : ∀ other ∈ rows, other.pair ≠ first.pair := by simpa using absent
      obtain ⟨_, inserted⟩ := of_unless inserted
      obtain ⟨keyed, pairs⟩ := ih inserted (nodup_append_singleton unique isNew)
      refine ⟨keyed, fun pair listed => ?_⟩
      rcases pairs pair listed with old | later
      · rw [map_append, mem_append, map_singleton, mem_singleton] at old
        rcases old with known | rfl
        · exact .inl known
        · exact .inr (.head _)
      · exact .inr (.tail _ later)

theorem DeliveryRow.requeue_pair (now : Time) (row : DeliveryRow) :
    (row.requeue now).pair = row.pair := by
  rw [DeliveryRow.requeue]
  split
  · rfl
  · rfl

section

variable (keyed : Keyed db)

include keyed

/-- The keys are about events and the pairs of deliveries only. -/
theorem Keyed.congr (events : db'.events = db.events)
    (pairs : db'.deliveries.map DeliveryRow.pair = db.deliveries.map DeliveryRow.pair) :
    Keyed db' := by
  constructor
  · rw [events]
    exact keyed.events
  · rw [pairs]
    exact keyed.deliveries
  · rw [events, pairs]
    exact keyed.references

/-- Deliveries of events that exist keep the references. -/
theorem Keyed.insertDeliveries
    (keeps : ∀ row, (onConflict row).pair = row.pair) {new rows' : List DeliveryRow}
    (inserted : Events.insertDeliveries onConflict db.deliveries new = some rows')
    (known : ∀ row ∈ new, row.eventId ∈ db.events.map EventRow.id) :
    Keyed { db with deliveries := rows' } := by
  obtain ⟨unique, pairs⟩ := insertDeliveries_spec keeps inserted keyed.deliveries
  refine ⟨keyed.events, unique, fun pair listed => ?_⟩
  rcases pairs pair listed with old | added
  · exact keyed.references pair old
  · obtain ⟨row, member, rfl⟩ := mem_map.mp added
    exact known row member

theorem claimDue_keyed (picked : List Uuid) :
    Keyed (claimDue db mcpEventsEnabled now picked).2 := by
  have keeps : ∀ row : DeliveryRow, (row.claim now).pair = row.pair := fun _ => rfl
  exact keyed.congr rfl (map_updateWhere keeps)

theorem finish_keyed (delivery : Claimed) (columns : Finish) :
    Keyed (finish db delivery columns) := by
  have keeps : ∀ row : DeliveryRow, (row.finish columns).pair = row.pair := fun _ => rfl
  exact keyed.congr rfl (map_updateWhere keeps)

theorem stopSubscription_keyed (subscriptionId : Text)
    (status : SubscriptionStatus) : Keyed (stopSubscription db subscriptionId status) := by
  have keeps : ∀ (reason : Text) (row : DeliveryRow), (row.stop reason).pair = row.pair :=
    fun _ _ => rfl
  exact keyed.congr rfl (map_updateWhere (keeps _))

end

variable {newId : Text → Uuid → Uuid}

theorem fanOutPending_spec {picked : List Uuid}
    (fanned : fanOutPending db access mcpEventsEnabled now picked newId = some db')
    (keyed : Keyed db) : Grows db db' ∧ Keyed db' := by
  obtain ⟨_, fanned⟩ := of_unless fanned
  obtain ⟨deliveries, inserted, rfl⟩ := of_map fanned
  have sameIds : ∀ event : EventRow, (event.fanOut now).id = event.id := fun _ => rfl
  have sameStamps : ∀ event : EventRow, (event.fanOut now).stamp = event.stamp := fun _ => rfl
  have queued := keyed.insertDeliveries (fun _ => rfl) inserted fun row member => by
    obtain ⟨event, marked, made⟩ := mem_flatMap.mp member
    obtain ⟨subscription, _, rfl⟩ := mem_map.mp made
    exact mem_map_of_mem (mem_filter.mp marked).1
  refine ⟨?_, ?_, queued.deliveries, ?_⟩
  · rw [Grows, map_updateWhere sameStamps]
    exact List.Subset.refl _
  · rw [map_updateWhere sameIds]
    exact keyed.events
  · rw [map_updateWhere sameIds]
    exact queued.references

theorem backfill_spec {row : Text} {since : Time}
    (filled : backfill db access mcpEventsEnabled now row since newId = some db')
    (keyed : Keyed db) : Grows db db' ∧ Keyed db' := by
  obtain ⟨deliveries, inserted, rfl⟩ := of_map filled
  refine ⟨Grows.refl db, keyed.insertDeliveries (DeliveryRow.requeue_pair now) inserted ?_⟩
  intro row member
  obtain ⟨subscription, _, made⟩ := mem_flatMap.mp member
  obtain ⟨event, selected, rfl⟩ := mem_map.mp made
  exact mem_map_of_mem (mem_filter.mp selected).1

end Statements

/-! ## Anchors -/

/-- The anchor is not past any event that the subscription still waits for. -/
def Anchored (db : EventTables) (subscriptionId : Text) (anchor : Time) : Prop :=
  ∀ row ∈ db.deliveries, row.subscriptionId = subscriptionId → row.status.waiting = true →
    ∃ event ∈ db.events, event.id = row.eventId ∧ anchor ≤ event.receivedAt

variable {db : EventTables}

theorem anchored_of_min (keyed : Keyed db) (subscriptionId : Text) (fallback : Time) :
    Anchored db subscriptionId ((waitingTimes db subscriptionId).min?.getD fallback) := by
  intro row member ofSubscription waiting
  obtain ⟨event, listed, named⟩ :=
    mem_map.mp (keyed.references row.pair (mem_map_of_mem member))
  have named : event.id = row.eventId := named
  refine ⟨event, listed, named, ?_⟩
  have found : lookup EventRow.id row.eventId db.events = some event := by
    rw [← named]
    exact lookup_of_mem keyed.events listed
  have counted : event.receivedAt ∈ waitingTimes db subscriptionId := by
    refine mem_filterMap.mpr ⟨row, mem_filter.mpr ⟨member, ?_⟩, ?_⟩
    · simp [ofSubscription, waiting]
    · rw [found]
      rfl
  cases least : (waitingTimes db subscriptionId).min? with
  | none =>
    rw [min?_eq_none_iff] at least
    rw [least] at counted
    cases counted
  | some anchor => exact (min?_eq_some_iff.mp least).2 _ counted

/-- The anchor a body is sent with. -/
def Claimed.anchor (delivery : Claimed) : Time :=
  delivery.cursorAnchor.getD delivery.event.receivedAt

theorem readClaimed_anchored {access : Access} {ids : List Uuid}
    {delivery : Claimed} (keyed : Keyed db) (read : delivery ∈ readClaimed db access ids) :
    Anchored db delivery.subscriptionId delivery.anchor := by
  obtain ⟨row, _, built⟩ := mem_filterMap.mp read
  obtain ⟨subscription, _, event, _, done⟩ := of_bind₂ built
  cases done
  exact anchored_of_min keyed subscription.id event.receivedAt

/-! ## Reachable states -/

/-- A claim that was read in earlier tables. -/
structure Covered (db readIn : EventTables) (delivery : Claimed) : Prop where
  grows : Grows readIn db
  anchored : Anchored readIn delivery.subscriptionId delivery.anchor

/-- What a request in flight carries from its earlier steps. -/
def Justified (db : EventTables) : EventRequest → Prop
  | .claimed readIn deliveries => ∀ delivery ∈ deliveries, Covered db readIn delivery
  | .delivering readIn delivery => Covered db readIn delivery
  | .subscribing input askedAt since => input.anchor askedAt = some since
  | .backfilling _ cursor askedAt since =>
    ∃ decoded, Cursor.decode cursor askedAt = some decoded ∧ since = max decoded (askedAt - retention)
  | _ => True

theorem Justified.mono {before after : EventTables} (grows : Grows before after)
    {request : EventRequest} (justified : Justified before request) : Justified after request := by
  cases request with
  | claimed readIn deliveries =>
    intro delivery member
    obtain ⟨earlier, anchored⟩ := justified delivery member
    exact ⟨earlier.trans grows, anchored⟩
  | delivering readIn delivery => exact ⟨justified.grows.trans grows, justified.anchored⟩
  | subscribing => exact justified
  | backfilling => exact justified
  | _ => trivial

theorem justified_next (db : EventTables) (delivery : Claimed) (verdict : Verdict) :
    Justified db (verdict.next delivery) := by
  cases verdict with
  | finish => trivial
  | stop => trivial
  | send => trivial

namespace EventSystem

structure Sound (s : EventSystem) : Prop where
  keyed : Keyed s.db
  requests : ∀ id request, s.requests id = some request → Justified s.db request
  sent : ∀ note ∈ s.sent, Grows note.readIn s.db ∧
    ∃ anchor, note.body.cursor = Cursor.encode anchor ∧
      Anchored note.readIn note.subscriptionId anchor

theorem Sound.init (access : Access) : Sound (init access) where
  keyed := ⟨nodup_nil, nodup_nil, fun _ listed => nomatch listed⟩
  requests := fun _ _ found => nomatch found
  sent := fun _ member => nomatch member

variable {s t : EventSystem} {request : Option EventRequest}

/-- A step that rewrites one slot and the tables. -/
theorem Sound.put (sound : Sound s) (grows : Grows s.db db) (keyed : Keyed db)
    {id : Nat} (new : ∀ r, request = some r → Justified db r) :
    Sound { s.put id request with db } where
  keyed := keyed
  requests := forall_slots_update
    (fun other r found => (sound.requests other r found).mono grows) new
  sent := fun note member =>
    ⟨(sound.sent note member).1.trans grows, (sound.sent note member).2⟩

/-- A step that rewrites one slot only. -/
theorem Sound.putOnly (sound : Sound s) {id : Nat}
    (new : ∀ r, request = some r → Justified s.db r) : Sound (s.put id request) :=
  sound.put (Grows.refl _) sound.keyed new

theorem Sound.deliver (sound : Sound s) {task : Nat} {readIn : EventTables} {delivery : Claimed}
    {verdict : Verdict} {bodies : List SentBody}
    (covered : Covered s.db readIn delivery)
    (sends : ∀ note ∈ bodies, note = ⟨delivery.subscriptionId, delivery.body, readIn⟩) :
    Sound { s.put task (some (verdict.next delivery)) with sent := s.sent ++ bodies } where
  keyed := sound.keyed
  requests := forall_slots_update sound.requests fun r taken => by
    cases taken
    exact justified_next s.db delivery verdict
  sent := by
    intro note member
    rcases mem_append.mp member with old | added
    · exact sound.sent note old
    · rw [sends note added]
      exact ⟨covered.grows, delivery.anchor, rfl, covered.anchored⟩

variable {subscriptionId : SubscriptionIdentity → Text}

/-- Every step keeps a sound system sound. -/
theorem step_sound (sound : Sound s) {event : SystemEvent}
    (stepped : step subscriptionId s event = some t) : Sound t := by
  cases event with
  | receive id accountId runtimeId now inputs =>
    rw [step] at stepped
    split at stepped
    · cases stepped
    · cases stepped
      exact sound.putOnly fun r taken => by cases taken; trivial
  | insertEvents id =>
    rw [step] at stepped
    split at stepped
    · obtain ⟨events, inserted, rfl⟩ := of_map stepped
      obtain ⟨kept, unique⟩ := insertEvents_spec inserted sound.keyed.events
      refine sound.put ?_ ?_ fun r taken => nomatch taken
      · exact map_subset _ kept
      · exact ⟨unique, sound.keyed.deliveries,
          fun pair listed => map_subset _ kept (sound.keyed.references pair listed)⟩
    · cases stepped
  | fanOut mcpEventsEnabled now picked newId =>
    obtain ⟨db, fanned, rfl⟩ := of_map stepped
    obtain ⟨grows, keyed⟩ := fanOutPending_spec fanned sound.keyed
    exact ⟨keyed, fun other r found => (sound.requests other r found).mono grows,
      fun note member => ⟨(sound.sent note member).1.trans grows, (sound.sent note member).2⟩⟩
  | claim id mcpEventsEnabled now picked =>
    obtain ⟨_, stepped⟩ := of_unless stepped
    cases stepped
    refine sound.put ?_ ?_ fun r taken => ?_
    · exact Grows.refl _
    · exact claimDue_keyed sound.keyed picked
    · split at taken
      · cases taken
      · cases taken
        trivial
  | readClaimed id =>
    rw [step] at stepped
    split at stepped
    · cases stepped
      refine sound.putOnly fun r taken => ?_
      cases taken
      exact fun delivery read => ⟨Grows.refl _, readClaimed_anchored sound.keyed read⟩
    · cases stepped
  | spawn id task =>
    rw [step] at stepped
    split at stepped
    · rename_i readIn delivery rest found
      have covered := sound.requests id _ found
      obtain ⟨_, stepped⟩ := of_unless stepped
      cases stepped
      refine (sound.putOnly fun r taken => ?_).putOnly fun r taken => ?_
      · cases taken
        exact fun other member => covered other (.tail _ member)
      · cases taken
        exact covered delivery (.head _)
    · cases stepped
  | deliver task keysAvailable now =>
    rw [step] at stepped
    split at stepped
    · rename_i readIn delivery found
      cases stepped
      refine sound.deliver (sound.requests task _ found) fun note member => ?_
      split at member
      · exact mem_singleton.mp member
      · cases member
    · cases stepped
  | answer task result now =>
    rw [step] at stepped
    split at stepped
    · cases stepped
      refine sound.putOnly fun r taken => ?_
      cases taken
      exact justified_next s.db _ _
    · cases stepped
  | stopSubscription task =>
    rw [step] at stepped
    split at stepped
    · cases stepped
      refine sound.put ?_ ?_ fun r taken => ?_
      · exact Grows.refl _
      · exact stopSubscription_keyed sound.keyed _ _
      · cases taken
        trivial
    · cases stepped
  | finish task =>
    rw [step] at stepped
    split at stepped
    · cases stepped
      refine sound.put ?_ ?_ fun r taken => nomatch taken
      · exact Grows.refl _
      · exact finish_keyed sound.keyed _ _
    · cases stepped
  | subscribe id input now =>
    rw [step] at stepped
    split at stepped
    · cases stepped
    · obtain ⟨since, anchored, rfl⟩ := of_map stepped
      exact sound.putOnly fun r taken => by cases taken; exact anchored
  | upsert id =>
    rw [step] at stepped
    split at stepped
    · rename_i input askedAt since found
      have anchored : input.anchor askedAt = some since := sound.requests id _ found
      cases stepped
      refine sound.put ?_ ?_ fun r taken => ?_
      · exact Grows.refl _
      · exact sound.keyed.congr rfl rfl
      · obtain ⟨cursor, given, rfl⟩ := of_map taken
        rw [SubscribeInput.anchor, given] at anchored
        obtain ⟨decoded, valid, rfl⟩ := of_map anchored
        exact ⟨decoded, valid, rfl⟩
    · cases stepped
  | backfill id mcpEventsEnabled now newId =>
    rw [step] at stepped
    split at stepped
    · obtain ⟨db, filled, rfl⟩ := of_map stepped
      obtain ⟨grows, keyed⟩ := backfill_spec filled sound.keyed
      exact sound.put grows keyed fun r taken => nomatch taken
    · cases stepped
  | setAccess access =>
    cases stepped
    exact ⟨sound.keyed, sound.requests, sound.sent⟩
  | abandon id =>
    cases stepped
    exact sound.putOnly fun r taken => nomatch taken

theorem run_sound {access : Access} {events : List SystemEvent}
    (ran : run (step subscriptionId) (.init access) events = some s) : Sound s :=
  run_invariant Sound (fun _ _ _ sound stepped => step_sound sound stepped) events _ s
    (.init access) ran

end EventSystem

/-! ## What a refresh with a cursor brings back

A body carries the receive time of the oldest event its subscription was waiting for
when the claim was read.  A refresh with that cursor queues what is retained since
then: an event whose delivery was waiting at that time, or that was received at the
cursor or later, has a delivery afterwards, and not one that stopped because the
subscription expired (`replay_covers`).

A delivery that is settled between the claim and the refresh stays settled.  The very
delivery whose body carried the cursor may be refused for good, and the refresh does
not send it again (`refused_delivery_stays_dead`).

The anchor is a minimum over deliveries, so an event without one does not hold it
back.  An event that is stamped, overtaken by a later one, and inserted only when its
subscription has lapsed gets no delivery at fan-out and lies before the cursor that
the later one was sent with (`overtaken_event_skipped`).
-/

/-! ## What backfill inserts -/

section Requeue

variable {now : Time} {rows new rows' : List DeliveryRow} {row : DeliveryRow}

theorem DeliveryRow.requeue_of_not_resumable (kept : row.resumable = false) :
    row.requeue now = row := by
  rw [DeliveryRow.requeue, kept]
  rfl

/-- Requeued or not, no delivery is left stopped by expiry. -/
theorem DeliveryRow.requeue_not_resumable (row : DeliveryRow) :
    (row.requeue now).resumable = false := by
  rw [DeliveryRow.requeue]
  split
  · rfl
  · rename_i kept
    exact Bool.eq_false_iff.mpr kept

theorem DeliveryRow.requeue_origin (row : DeliveryRow) :
    (row.requeue now).status = .pending ∨ row.requeue now = row := by
  rw [DeliveryRow.requeue]
  split
  · exact .inl rfl
  · exact .inr rfl

theorem resumable_of_pending (pending : row.status = .pending) : row.resumable = false := by
  rw [DeliveryRow.resumable, pending]
  rfl

/-- Deliveries that expiry did not stop are left as they are, what was not there before is pending,
and every pair that is inserted has a delivery afterwards that expiry does not hold back. -/
theorem insertDeliveries_requeued
    (inserted : insertDeliveries (DeliveryRow.requeue now) rows new = some rows')
    (pending : ∀ row ∈ new, row.status = .pending) :
    (∀ row ∈ rows, row.resumable = false → row ∈ rows') ∧
    (∀ row ∈ rows', row.status = .pending ∨ row ∈ rows) ∧
    ∀ wanted ∈ new, ∃ row ∈ rows', row.pair = wanted.pair ∧ row.resumable = false := by
  induction new generalizing rows with
  | nil =>
    cases inserted
    exact ⟨fun _ member _ => member, fun _ => .inr, fun _ member => absurd member not_mem_nil⟩
  | cons first rest ih =>
    have fresh : first.status = .pending := pending first (.head _)
    have later : ∀ row ∈ rest, row.status = .pending := fun row listed =>
      pending row (.tail _ listed)
    rw [insertDeliveries] at inserted
    split at inserted
    · rename_i conflict
      obtain ⟨keeps, origin, covers⟩ := ih inserted later
      refine ⟨fun row member kept => keeps row (mem_updateWhere.mpr ⟨row, member, ?_⟩) kept,
        fun row member => ?_, forall_mem_cons.mpr ⟨?_, covers⟩⟩
      · rw [DeliveryRow.requeue_of_not_resumable kept, ite_self]
      · rcases origin row member with isPending | updated
        · exact .inl isPending
        · obtain ⟨old, known, rfl⟩ := mem_updateWhere.mp updated
          split
          · rcases old.requeue_origin with isPending | same
            · exact .inl isPending
            · rw [same]
              exact .inr known
          · exact .inr known
      · obtain ⟨old, known, same⟩ := any_eq_true.mp conflict
        have kept : (old.requeue now).resumable = false := old.requeue_not_resumable
        refine ⟨old.requeue now, keeps _ (mem_updateWhere_of_selected known same) kept, ?_, kept⟩
        rw [DeliveryRow.requeue_pair]
        exact of_decide_eq_true same
    · obtain ⟨_, inserted⟩ := of_unless inserted
      obtain ⟨keeps, origin, covers⟩ := ih inserted later
      have kept := resumable_of_pending fresh
      have appended : first ∈ rows ++ [first] := mem_append_right _ (mem_singleton.mpr rfl)
      refine ⟨fun row member => keeps row (mem_append_left _ member), fun row member => ?_,
        forall_mem_cons.mpr ⟨⟨first, keeps first appended kept, rfl, kept⟩, covers⟩⟩
      rcases origin row member with isPending | source
      · exact .inl isPending
      · rcases mem_append.mp source with known | single
        · exact .inr known
        · exact .inl (mem_singleton.mp single ▸ fresh)

end Requeue

/-- A delivery that is on its way or arrived, or that was settled for another reason than expiry
before the backfill. -/
def DeliveryRow.Accounted (before : List DeliveryRow) (row : DeliveryRow) : Prop :=
  row.status = .pending ∨ row.status = .sending ∨ row.status = .delivered ∨
    row ∈ before ∧ (row.status = .dead ∨
      row.status = .stopped ∧ row.lastError ≠ some subscriptionExpired)

theorem DeliveryRow.accounted {before : List DeliveryRow} {row : DeliveryRow}
    (origin : row.status = .pending ∨ row ∈ before) (kept : row.resumable = false) :
    row.Accounted before := by
  rcases origin with pending | known
  · exact .inl pending
  · cases status : row.status with
    | pending => exact .inl status
    | sending => exact .inr (.inl status)
    | delivered => exact .inr (.inr (.inl status))
    | dead => exact .inr (.inr (.inr ⟨known, .inl status⟩))
    | stopped =>
      refine .inr (.inr (.inr ⟨known, .inr ⟨status, fun expired => ?_⟩⟩))
      rw [DeliveryRow.resumable, status, expired] at kept
      cases kept

/-- **Backfill.** Every event it selects for a subscription has a delivery afterwards, accounted
for. -/
theorem backfill_covers {db db' : EventTables} {access : Access} {mcpEventsEnabled : Bool}
    {now since : Time} {newId : Text → Uuid → Uuid} {subscription : SubscriptionRow} {event : EventRow}
    (filled : backfill db access mcpEventsEnabled now subscription.id since newId = some db')
    (listed : subscription ∈ db.subscriptions)
    (selected : event ∈ replayed db access mcpEventsEnabled now since subscription) :
    ∃ row ∈ db'.deliveries, row.pair = (subscription.id, event.id) ∧ row.Accounted db.deliveries := by
  obtain ⟨deliveries, inserted, rfl⟩ := of_map filled
  have pending : ∀ row ∈ (db.subscriptions.filter (·.id = subscription.id)).flatMap
      fun other => (replayed db access mcpEventsEnabled now since other).map (queued newId now other),
      row.status = .pending := by
    intro row member
    obtain ⟨other, _, made⟩ := mem_flatMap.mp member
    obtain ⟨queuedEvent, _, rfl⟩ := mem_map.mp made
    rfl
  have wanted : queued newId now subscription event ∈
      (db.subscriptions.filter (·.id = subscription.id)).flatMap fun other =>
        (replayed db access mcpEventsEnabled now since other).map (queued newId now other) := by
    refine mem_flatMap.mpr ⟨subscription, mem_filter.mpr ⟨listed, ?_⟩, ?_⟩
    · exact decide_eq_true rfl
    · exact mem_map_of_mem selected
  obtain ⟨-, origin, covers⟩ := insertDeliveries_requeued inserted pending
  obtain ⟨row, member, pair, kept⟩ := covers _ wanted
  exact ⟨row, member, pair, DeliveryRow.accounted (origin row member) kept⟩

/-! ## Refreshing with a cursor that was sent -/

namespace EventSystem

variable {subscriptionId : SubscriptionIdentity → Text}

/-- A run, a cursor it sent, the backfill of a refresh with that cursor, and a retained event that
matches the subscription when the backfill runs. -/
structure Replay (subscriptionId : SubscriptionIdentity → Text) (s t : EventSystem)
    (note : SentBody) (event : EventRow) : Prop where
  reached : ∃ access events, run (step subscriptionId) (.init access) events = some s
  sent : note ∈ s.sent
  stored : event ∈ s.db.events
  backfills : ∃ request mcpEventsEnabled askedAt since now newId,
    s.requests request = some (.backfilling note.subscriptionId note.body.cursor askedAt since) ∧
      step subscriptionId s (.backfill request mcpEventsEnabled now newId) = some t ∧
      askedAt ≤ event.receivedAt + retention ∧ now ≤ event.receivedAt + retention ∧
      ∃ subscription ∈ s.db.subscriptions, subscription.id = note.subscriptionId ∧
        subscription.createdAt ≤ event.receivedAt ∧
        eventMatch s.access mcpEventsEnabled now subscription event = true

end EventSystem

/-- The delivery of an event was pending or in flight when the cursor was computed. -/
def SentBody.Awaited (note : SentBody) (event : EventRow) : Prop :=
  ∃ row ∈ note.readIn.deliveries, row.pair = (note.subscriptionId, event.id) ∧
    row.status.waiting = true

/-- The event was received at the cursor or later. -/
def SentBody.Follows (note : SentBody) (event : EventRow) : Prop :=
  note.body.cursor.since * 1000 ≤ event.receivedAt

namespace EventSystem

variable {subscriptionId : SubscriptionIdentity → Text} {s t : EventSystem} {note : SentBody}
  {event : EventRow}

/-- A cursor is not past an event that was awaited when it was computed. -/
theorem Sound.follows_of_awaited (sound : Sound s) (sent : note ∈ s.sent)
    (stored : event ∈ s.db.events) (awaited : note.Awaited event) : note.Follows event := by
  obtain ⟨grows, anchor, encoded, anchored⟩ := sound.sent note sent
  obtain ⟨row, member, pair, waiting⟩ := awaited
  obtain ⟨read, listed, named, before⟩ := anchored row member (congrArg Prod.fst pair) waiting
  have sameEvent : read.id = event.id := named.trans (congrArg Prod.snd pair)
  have sameTime := grows.receivedAt_eq sound.keyed listed stored sameEvent
  rw [SentBody.Follows, encoded]
  calc anchor / 1000 * 1000 ≤ anchor := Nat.div_mul_le_self anchor 1000
    _ ≤ read.receivedAt := before
    _ = event.receivedAt := sameTime

/-- **Replay.** After a refresh with a cursor that was sent, every retained matching event that was
awaited when the cursor was computed, or received since, has exactly one delivery, and it is
accounted for. -/
theorem replay_covers (replay : Replay subscriptionId s t note event)
    (owed : note.Awaited event ∨ note.Follows event) :
    ∃ row ∈ t.db.deliveries, row.pair = (note.subscriptionId, event.id) ∧
      row.Accounted s.db.deliveries ∧
      ∀ other ∈ t.db.deliveries, other.pair = row.pair → other = row := by
  obtain ⟨access, events, ran⟩ := replay.reached
  have sound := run_sound ran
  have follows : note.Follows event :=
    owed.elim (sound.follows_of_awaited replay.sent replay.stored) id
  obtain ⟨request, mcpEventsEnabled, askedAt, since, now, newId, refreshing, stepped, asked, timely,
    subscription, listed, named, _, matching⟩ := replay.backfills
  obtain ⟨decoded, valid, rfl⟩ := sound.requests request _ refreshing
  have unique := (step_sound sound stepped).keyed.deliveries
  rw [step, refreshing] at stepped
  obtain ⟨db, filled, rfl⟩ := of_map stepped
  rw [← named] at filled
  -- The cursor, the floor of the request and the floor of the backfill all lie at or before it.
  have since : max (max decoded (askedAt - retention)) (now - retention) ≤ event.receivedAt := by
    rw [SentBody.Follows, ← Cursor.decode_some valid] at follows
    have request : max decoded (askedAt - retention) ≤ event.receivedAt :=
      Nat.max_le.mpr ⟨follows, Nat.sub_le_of_le_add asked⟩
    exact Nat.max_le.mpr ⟨request, Nat.sub_le_of_le_add timely⟩
  have selected : event ∈ replayed s.db s.access mcpEventsEnabled now
      (max decoded (askedAt - retention)) subscription := by
    refine mem_filter.mpr ⟨replay.stored, ?_⟩
    rw [matching, Bool.and_true]
    exact decide_eq_true since
  obtain ⟨row, member, pair, accounted⟩ := backfill_covers filled listed selected
  rw [named] at pair
  exact ⟨row, member, pair, accounted, fun other present same =>
    eq_of_key unique present member same⟩

/-! ## Concrete runs -/

/-- One account, one grant that reaches everything. -/
def openAccess : Access := ⟨fun _ => true, fun _ _ => true⟩

def sampleIdentity : SubscriptionIdentity :=
  ⟨⟨1⟩, ⟨2⟩, "https://example.test/hook".toList, "agent.status".toList, []⟩

def sampleId (_ : SubscriptionIdentity) : Text := "sub".toList

def sampleSubscribe (cursor : Option Anchor) (ttlMs : Option Int) : SubscribeInput :=
  ⟨sampleIdentity, none, cursor, ttlMs⟩

def sampleInput (id : Uuid) (eventId : Text) : EventInput :=
  ⟨id, eventId, 0, "agent.status".toList, none, none, [], 0⟩

/-- Delivery ids: one for each event. -/
def sampleDeliveryId (_ : Text) (event : Uuid) : Uuid := event

/-- A batch of one event, stamped at `now`. -/
def receiveSample (request : Nat) (id : Uuid) (eventId : Text) (now : Time) : SystemEvent :=
  .receive request ⟨1⟩ "runtime".toList now [sampleInput id eventId]

/-- A worker claims one delivery and sends its body. -/
def sendSample (delivery : Uuid) (now : Time) : List SystemEvent :=
  [.claim 2 true now [delivery], .readClaimed 2, .spawn 2 3, .deliver 3 true now, .abandon 2]

def subscribed (ttlMs : Option Int) : List SystemEvent :=
  [.subscribe 0 (sampleSubscribe none ttlMs) (seconds 100), .upsert 0]

/-- An event is received at 200 s, and its body is sent. -/
def firstSent : List SystemEvent :=
  [receiveSample 1 ⟨10⟩ "e1".toList (seconds 200), .insertEvents 1,
    .fanOut true (seconds 200) [⟨10⟩] sampleDeliveryId] ++ sendSample ⟨10⟩ (seconds 201)

/-- A refresh at 300 s with the cursor of that body, up to its backfill. -/
def refreshed : List SystemEvent :=
  [.subscribe 0 (sampleSubscribe (some ⟨1, 200000⟩) none) (seconds 300), .upsert 0]

def sampleBackfill : SystemEvent := .backfill 0 true (seconds 301) sampleDeliveryId

/-- A sample run that ends in a replay, evaluated. -/
theorem exists_replay (events : List SystemEvent)
    (judge : EventSystem → EventSystem → SentBody → EventRow → Bool)
    (evaluated : ((run (step sampleId) (.init openAccess) (events ++ refreshed)).bind fun s =>
      (step sampleId s sampleBackfill).map fun t =>
        decide (∃ note ∈ s.sent, ∃ event ∈ s.db.events,
          (s.requests 0 = some (.backfilling note.subscriptionId note.body.cursor (seconds 300)
              (seconds 200)) ∧
            seconds 301 ≤ event.receivedAt + retention) ∧
          (∃ subscription ∈ s.db.subscriptions, subscription.id = note.subscriptionId ∧
            subscription.createdAt ≤ event.receivedAt ∧
            eventMatch s.access true (seconds 301) subscription event = true) ∧
          judge s t note event = true)) = some true) :
    ∃ s t note event, Replay sampleId s t note event ∧ judge s t note event = true := by
  obtain ⟨s, ran, rest⟩ := of_bind evaluated
  obtain ⟨t, stepped, holds⟩ := of_map rest
  obtain ⟨note, sent, event, stored, ⟨refreshing, timely⟩, matching, judged⟩ :=
    of_decide_eq_true holds
  have asked : seconds 300 ≤ event.receivedAt + retention := Nat.le_trans (by decide) timely
  exact ⟨s, t, note, event, ⟨⟨openAccess, _, ran⟩, sent, stored, 0, true, seconds 300, seconds 200,
    seconds 301, sampleDeliveryId, refreshing, stepped, asked, timely, matching⟩, judged⟩

instance (note : SentBody) (event : EventRow) : Decidable (note.Awaited event) :=
  inferInstanceAs (Decidable (∃ row ∈ note.readIn.deliveries,
    row.pair = (note.subscriptionId, event.id) ∧ row.status.waiting = true))

/-- The receiver times out once, the subscription lapses, and the worker stops the delivery. -/
def lapsedRun : List SystemEvent :=
  subscribed (some 120000) ++ firstSent ++
    [.answer 3 (.error .timeout) (seconds 202), .finish 3] ++ sendSample ⟨10⟩ (seconds 230) ++
    [.stopSubscription 3, .finish 3]

/-- The refresh queues the delivery that expiry stopped again. -/
theorem replay_covers_lapsedRun :
    ∃ s t note event, Replay sampleId s t note event ∧ note.Awaited event ∧
      (∃ row ∈ s.db.deliveries, row.pair = (note.subscriptionId, event.id) ∧ row.resumable = true) ∧
      ∃ row ∈ t.db.deliveries, row.pair = (note.subscriptionId, event.id) ∧
        row.Accounted s.db.deliveries ∧
        ∀ other ∈ t.db.deliveries, other.pair = row.pair → other = row := by
  obtain ⟨s, t, note, event, replay, judged⟩ := exists_replay lapsedRun
    (fun s _ note event => decide (note.Awaited event ∧ ∃ row ∈ s.db.deliveries,
      row.pair = (note.subscriptionId, event.id) ∧ row.resumable = true)) (by decide +kernel)
  obtain ⟨awaited, stopped⟩ := of_decide_eq_true judged
  exact ⟨s, t, note, event, replay, awaited, stopped, replay_covers replay (.inl awaited)⟩

/-- The receiver refuses the body that carries the cursor: its event stays dead through the
refresh. -/
theorem refused_delivery_stays_dead :
    ∃ s t note event, Replay sampleId s t note event ∧ note.Awaited event ∧
      ∃ row ∈ t.db.deliveries, row.pair = (note.subscriptionId, event.id) ∧ row.status = .dead ∧
        ∀ other ∈ t.db.deliveries, other.pair = row.pair → other = row := by
  obtain ⟨s, t, note, event, replay, judged⟩ := exists_replay
    (subscribed none ++ firstSent ++ [.answer 3 (.ok 400) (seconds 202), .finish 3])
    (fun _ t note event => decide (note.Awaited event ∧ ∃ row ∈ t.db.deliveries,
      row.pair = (note.subscriptionId, event.id) ∧ row.status = .dead ∧
        ∀ other ∈ t.db.deliveries, other.pair = row.pair → other = row)) (by decide +kernel)
  obtain ⟨awaited, dead⟩ := of_decide_eq_true judged
  exact ⟨s, t, note, event, replay, awaited, dead⟩

/-- An event stamped at 150 s is inserted when a body with cursor 200 s is out and the subscription
has lapsed: it had no delivery when the cursor was computed, and the refresh gives it none. -/
theorem overtaken_event_skipped :
    ∃ s t note event, Replay sampleId s t note event ∧
      (∀ row ∈ note.readIn.deliveries, row.pair ≠ (note.subscriptionId, event.id)) ∧
      ∀ row ∈ t.db.deliveries, row.pair ≠ (note.subscriptionId, event.id) := by
  obtain ⟨s, t, note, event, replay, judged⟩ := exists_replay
    (subscribed (some 120000) ++ [receiveSample 4 ⟨11⟩ "e0".toList (seconds 150)] ++ firstSent ++
      [.answer 3 (.ok 200) (seconds 202), .finish 3, .insertEvents 4,
        .fanOut true (seconds 230) [⟨11⟩] sampleDeliveryId])
    (fun _ t note event => decide (
      (∀ row ∈ note.readIn.deliveries, row.pair ≠ (note.subscriptionId, event.id)) ∧
      ∀ row ∈ t.db.deliveries, row.pair ≠ (note.subscriptionId, event.id))) (by decide +kernel)
  obtain ⟨unqueued, skipped⟩ := of_decide_eq_true judged
  exact ⟨s, t, note, event, replay, unqueued, skipped⟩

end EventSystem

end Alera.Cloud.Events
