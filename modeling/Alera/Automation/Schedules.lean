/-
# Alera.Automation.Schedules -- when an automation is due

`automation_schedule.rs`: a recurring schedule is a cron expression in a time zone, with
an optional start and end.  `next_occurrence` goes through the local minutes from that
of `after` on and takes the first that matches and belongs to an instant behind `after`
and not before the start; of two instants with the same local time it takes the first.

What is due is defined on instants (`Eligible`), while the scan goes by local time.
`nextOccurrence_cases` and `previewFrom_cases` say that the two agree, because an eligible
instant has a later local time than everything before it (`LocalTime.local_lt_of_first`).

Instants and local times are nanoseconds, without bounds.  The calendar, the formats and
the names of the zones are parameters (`Chrono`).
-/
import Alera.Cloud.Sessions
import Alera.Theory.LocalTime
import Alera.Theory.Runs
import Alera.Theory.Lists

namespace Alera.Automation.Schedules

open Theory List LocalTime
open Cloud (isWhitespace trim byteLength)

set_option autoImplicit false

abbrev Text := List Char

/-! ## Cron expressions -/

/-- `CronField`; a set is a list without repetitions. -/
structure CronField where
  values : List Nat
  min : Nat
  max : Nat

/-- `CronExpression`. -/
structure CronExpression where
  minute : CronField
  hour : CronField
  dayOfMonth : CronField
  month : CronField
  dayOfWeek : CronField
  dayOfMonthRestricted : Bool
  dayOfWeekRestricted : Bool

/-- `str::parse::<u32>`: digits, possibly behind a plus sign. -/
def parseU32 (text : Text) : Option Nat :=
  let digits := if text.head? == some '+' then text.tail else text
  if digits.isEmpty || !digits.all Char.isDigit then none
  else
    let value := digits.foldl (fun value c => 10 * value + (c.toNat - '0'.toNat)) 0
    if value < 2 ^ 32 then some value else none

/-- `parse_cron_number`. -/
def parseCronNumber (raw : Text) (names : List (Text × Nat)) (field : String) : Except String Nat :=
  match names.find? fun entry => entry.1 == raw.map Char.toUpper with
  | some entry => .ok entry.2
  | none =>
    match parseU32 raw with
    | some value => .ok value
    | none => .error ("invalid cron " ++ field ++ " value")

/-- The loop over the steps of a range.  Every round but the last adds a step, so as many
rounds as there are numbers in the range are enough (`mem_insertSteps`). -/
def insertSteps (normalize : Nat → Nat) (last step : Nat) : Nat → Nat → List Nat → List Nat
  | 0, _, values => values
  | rounds + 1, value, values =>
    if last - value < step then values.insert (normalize value)
    else insertSteps normalize last step rounds (value + step) (values.insert (normalize value))

/-- The range of a part: everything, two numbers or one. -/
def parseRange (range : Text) (min max : Nat) (field : String) (names : List (Text × Nat)) :
    Except String (Nat × Nat) :=
  if range == "*".toList then .ok (min, max)
  else if range.contains '-' then do
    let start ← parseCronNumber (range.takeWhile (· != '-')) names field
    let last ← parseCronNumber ((range.dropWhile (· != '-')).tail) names field
    .ok (start, last)
  else do
    let value ← parseCronNumber range names field
    .ok (value, value)

/-- The step of a part, 1 if there is none. -/
def parseStep (pieces : List Text) (field : String) : Except String Nat :=
  match pieces with
  | _ :: raw :: _ =>
    match parseU32 raw with
    | some step => .ok step
    | none => .error ("invalid cron " ++ field ++ " step")
  | _ => .ok 1

/-- One part of a field. -/
def parsePart (min max : Nat) (field : String) (names : List (Text × Nat)) (normalize : Nat → Nat)
    (values : List Nat) (part : Text) : Except String (List Nat) := do
  let part := trim part
  if part.isEmpty then .error ("invalid cron " ++ field)
  let pieces := part.splitOn '/'
  if pieces.length > 2 then .error ("invalid cron " ++ field ++ " step")
  let step ← parseStep pieces field
  if step = 0 then .error ("invalid cron " ++ field ++ " step")
  let (start, last) ← parseRange (pieces.headD []) min max field names
  if start < min ∨ last > max ∨ start > last then .error ("invalid cron " ++ field ++ " range")
  .ok (insertSteps normalize last step (last - start + 1) start values)

/-- `CronField::parse`. -/
def CronField.parse (raw : Text) (min max : Nat) (field : String) (names : List (Text × Nat))
    (normalize : Nat → Nat) : Except String CronField := do
  let values ← (raw.splitOn ',').foldlM (parsePart min max field names normalize) []
  if values.isEmpty then .error ("invalid cron " ++ field)
  .ok ⟨values, min, max⟩

/-- `CronField::matches`. -/
def CronField.matchesValue (field : CronField) (value : Nat) : Bool :=
  field.min ≤ value && value ≤ field.max && field.values.contains value

/-- `CronField::is_unrestricted`. -/
def CronField.isUnrestricted (field : CronField) : Bool :=
  if field.min = 0 ∧ field.max = 7 then (List.range 7).all (field.values.contains ·)
  else field.values.length == field.max - field.min + 1

def monthNames : List (Text × Nat) :=
  [("JAN", 1), ("FEB", 2), ("MAR", 3), ("APR", 4), ("MAY", 5), ("JUN", 6), ("JUL", 7), ("AUG", 8),
    ("SEP", 9), ("OCT", 10), ("NOV", 11), ("DEC", 12)].map fun entry => (entry.1.toList, entry.2)

def weekdayNames : List (Text × Nat) :=
  [("SUN", 0), ("MON", 1), ("TUE", 2), ("WED", 3), ("THU", 4), ("FRI", 5), ("SAT", 6)].map
    fun entry => (entry.1.toList, entry.2)

/-- `AUTOMATION_CRON_MAX_BYTES`. -/
def automationCronMaxBytes : Nat := 2 * 1024

/-- `parse_expression`; the days are looked at first. -/
def parseExpression (expression : Text) : Except String CronExpression := do
  if byteLength expression > automationCronMaxBytes then .error "cron expression is too large"
  match splitWords isWhitespace expression with
  | [minute, hour, dayOfMonth, month, dayOfWeek] =>
    let dayOfMonth ← CronField.parse dayOfMonth 1 31 "day of month" [] id
    let dayOfWeek ← CronField.parse dayOfWeek 0 7 "day of week" weekdayNames
      fun value => if value = 7 then 0 else value
    let minute ← CronField.parse minute 0 59 "minute" [] id
    let hour ← CronField.parse hour 0 23 "hour" [] id
    let month ← CronField.parse month 1 12 "month" monthNames id
    .ok ⟨minute, hour, dayOfMonth, month, dayOfWeek, !dayOfMonth.isUnrestricted,
      !dayOfWeek.isUnrestricted⟩
  | _ => .error "cron schedule must have five fields"

/-- The fields of a local time; Sunday is day 0 of the week. -/
structure WallClock where
  minute : Nat
  hour : Nat
  day : Nat
  month : Nat
  weekday : Nat

/-- `cron_matches`. -/
def cronMatches (expression : CronExpression) (wall : WallClock) : Bool :=
  if !expression.minute.matchesValue wall.minute || !expression.hour.matchesValue wall.hour ||
      !expression.month.matchesValue wall.month then false
  else
    let monthDay := expression.dayOfMonth.matchesValue wall.day
    let weekDay := expression.dayOfWeek.matchesValue wall.weekday
    match expression.dayOfMonthRestricted, expression.dayOfWeekRestricted with
    | true, true => monthDay || weekDay
    | true, false => monthDay
    | false, true => weekDay
    | false, false => true

/-! ## Occurrences -/

/-- What the code takes from the library for times. -/
structure Chrono where
  /-- `Tz::from_str`. -/
  zoneOf : Text → Option Zone
  /-- The fields of a local time. -/
  clock : Int → WallClock
  /-- A local time as year, month, day, hour and minute. -/
  formatMinute : Int → Text
  /-- An instant, as `to_rfc3339` writes it. -/
  rfc3339 : Int → Text

/-- `AutomationSchedule`. -/
inductive Schedule where
  | oneTime (instant : Int) (timezone : Text)
  | recurring (cron timezone : Text) (startAt endAt : Option Int) (maxScheduledRuns : Option Int)

/-- `AutomationOccurrence`. -/
structure Occurrence where
  automationId : Text
  key : Text
  scheduledAt : Int
  localTime : Text

/-- The nanoseconds of a minute. -/
def minuteNanos : Int := 60000000000

/-- `MAX_CRON_SCAN_MINUTES`. -/
def maxCronScanMinutes : Nat := 9 * 366 * 24 * 60

section Model

variable (chrono : Chrono)

/-- `timezone`. -/
def timezoneOf (value : Text) : Except String Zone :=
  match chrono.zoneOf (trim value) with
  | some zone => .ok zone
  | none => .error ("unknown IANA timezone: " ++ String.ofList value)

/-- `occurrence_key`. -/
def occurrenceKey (timezone : Text) (wall : Int) : Text :=
  timezone ++ '|' :: chrono.formatMinute wall

/-- The occurrence of an instant with a local time. -/
def occurrenceAt (automationId timezone : Text) (wall utc : Int) : Occurrence :=
  ⟨automationId, occurrenceKey chrono timezone wall, utc, chrono.formatMinute wall⟩

/-- The local time without its seconds. -/
def floorMinute (wall : Int) : Int := wall - wall % minuteNanos

/-- An instant that the scan does not pass over. -/
def isDue (after : Int) (startAt : Option Int) (utc : Int) : Bool :=
  !(decide (utc ≤ after) || startAt.any fun start => decide (utc < start))

/-- What the scan answers for the instant it has found. -/
def answer (automationId timezone : Text) (endAt : Option Int) (wall utc : Int) :
    Except String (Option Occurrence) :=
  if endAt.any fun last => decide (utc > last) then .ok none
  else .ok (some (occurrenceAt chrono automationId timezone wall utc))

/-- The loop of `next_occurrence` over so many local minutes. -/
def scan (automationId timezone : Text) (expression : CronExpression) (zone : Zone) (after : Int)
    (startAt endAt : Option Int) : Nat → Int → Except String (Option Occurrence)
  | 0, _ => .error "cron schedule has no occurrence in the scan window"
  | left + 1, wall =>
    if cronMatches expression (chrono.clock wall) then
      match (zone.firstOf wall).find? (isDue after startAt) with
      | some utc => answer chrono automationId timezone endAt wall utc
      | none => scan automationId timezone expression zone after startAt endAt left
          (wall + minuteNanos)
    else scan automationId timezone expression zone after startAt endAt left (wall + minuteNanos)

/-- `next_occurrence`. -/
def nextOccurrence (automationId : Text) (schedule : Schedule) (after : Int) :
    Except String (Option Occurrence) :=
  match schedule with
  | .oneTime instant timezone => do
      let _ ← timezoneOf chrono timezone
      if instant ≤ after then .ok none
      else .ok (some ⟨automationId, "oneTime|".toList ++ chrono.rfc3339 instant, instant,
        chrono.rfc3339 instant⟩)
  | .recurring cron timezone startAt endAt _ => do
      let expression ← parseExpression cron
      let zone ← timezoneOf chrono timezone
      scan chrono automationId timezone expression zone after startAt endAt
        (maxCronScanMinutes + 1) (floorMinute (zone.localOf after))

/-- `validate_schedule`. -/
def validateSchedule (schedule : Schedule) : Except String Unit :=
  match schedule with
  | .oneTime _ timezone => do
      let _ ← timezoneOf chrono timezone
      .ok ()
  | .recurring cron timezone startAt endAt maxScheduledRuns => do
      let _ ← parseExpression cron
      let _ ← timezoneOf chrono timezone
      if startAt.any fun start => endAt.any fun last => decide (start ≥ last) then
        .error "automation schedule start must be before its end"
      if maxScheduledRuns.any fun value => decide (value < 1) then
        .error "max scheduled runs must be positive"
      .ok ()

/-- The loop of `preview_occurrences`. -/
def previewFrom (automationId : Text) (schedule : Schedule) :
    Nat → Int → Except String (List Occurrence)
  | 0, _ => .ok []
  | left + 1, cursor =>
    match nextOccurrence chrono automationId schedule cursor with
    | .error message => .error message
    | .ok none => .ok []
    | .ok (some next) =>
      match previewFrom automationId schedule left next.scheduledAt with
      | .error message => .error message
      | .ok later => .ok (next :: later)

/-- `preview_occurrences`. -/
def previewOccurrences (automationId : Text) (schedule : Schedule) (after : Int) (count : Nat) :
    Except String (List Occurrence) := do
  validateSchedule chrono schedule
  previewFrom chrono automationId schedule count after

end Model

/-! ## The values of a field -/

/-- A range adds what its steps reach, up to its end. -/
theorem mem_insertSteps {normalize : Nat → Nat} {last step : Nat} (positive : 0 < step)
    {rounds value : Nat} (within : value ≤ last) (enough : last - value < rounds)
    {values : List Nat} {x : Nat} :
    x ∈ insertSteps normalize last step rounds value values ↔
      x ∈ values ∨ ∃ k, value + k * step ≤ last ∧ x = normalize (value + k * step) := by
  induction rounds generalizing value values with
  | zero => omega
  | succ rounds ih =>
    rw [insertSteps]
    split
    next final =>
      rw [mem_insert_iff]
      constructor
      · rintro (rfl | old)
        · exact .inr ⟨0, by omega, by rw [Nat.zero_mul, Nat.add_zero]⟩
        · exact .inl old
      · rintro (old | ⟨k, inside, rfl⟩)
        · exact .inr old
        · cases k with
          | zero => exact .inl (by rw [Nat.zero_mul, Nat.add_zero])
          | succ k =>
            rw [Nat.succ_mul] at inside
            omega
    next more =>
      rw [ih (by omega) (by omega), mem_insert_iff]
      constructor
      · rintro ((rfl | old) | ⟨k, inside, rfl⟩)
        · exact .inr ⟨0, by omega, by rw [Nat.zero_mul, Nat.add_zero]⟩
        · exact .inl old
        · refine .inr ⟨k + 1, ?_, ?_⟩
          · rw [Nat.succ_mul]
            omega
          · rw [Nat.succ_mul, Nat.add_assoc, Nat.add_comm step]
      · rintro (old | ⟨k, inside, rfl⟩)
        · exact .inl (.inr old)
        · cases k with
          | zero => exact .inl (.inl (by rw [Nat.zero_mul, Nat.add_zero]))
          | succ k =>
            rw [Nat.succ_mul] at inside ⊢
            exact .inr ⟨k, by omega, by rw [Nat.add_assoc, Nat.add_comm step]⟩

/-- Every twenty minutes. -/
theorem mem_insertSteps_twenty : 40 ∈ insertSteps id 59 20 60 0 [] :=
  (mem_insertSteps (by decide) (by decide) (by decide)).mpr (.inr ⟨2, by decide⟩)

/-! ## What is due -/

section Due

variable (chrono : Chrono) (expression : CronExpression) (zone : Zone) (startAt : Option Int)

/-- The local time is a whole minute that matches, it has not been before, and the
schedule has started. -/
structure Eligible (u : Int) : Prop where
  whole : zone.localOf u % minuteNanos = 0
  matched : cronMatches expression (chrono.clock (zone.localOf u)) = true
  first : ∀ t, zone.localOf t = zone.localOf u → u ≤ t
  started : ∀ start ∈ startAt, start ≤ u

/-- Eligible behind `after`, and in local time not too far from it. -/
structure Upcoming (after u : Int) : Prop where
  eligible : Eligible chrono expression zone startAt u
  later : after < u
  near : |zone.localOf u - zone.localOf after| ≤ maxCronScanMinutes * minuteNanos

/-- The least upcoming instant. -/
def IsNext (after u : Int) : Prop :=
  Upcoming chrono expression zone startAt after u ∧
    ∀ v, Upcoming chrono expression zone startAt after v → u ≤ v

variable {chrono expression zone startAt}

variable {u : Int}

theorem Eligible.local_lt (eligible : Eligible chrono expression zone startAt u) {t : Int}
    (earlier : t < u) : zone.localOf t < zone.localOf u :=
  local_lt_of_first earlier eligible.first

variable {v : Int}

/-- Eligible instants are in the order of their local times. -/
theorem Eligible.le_of_local_le (eligible : Eligible chrono expression zone startAt u)
    (notLater : zone.localOf u ≤ zone.localOf v) : u ≤ v := by
  by_contra later
  have before := eligible.local_lt (Int.not_le.mp later)
  omega

variable {after : Int}

/-- The next instant comes before every other eligible one, near or not. -/
theorem IsNext.le (next : IsNext chrono expression zone startAt after u)
    (eligible : Eligible chrono expression zone startAt v) (later : after < v) : u ≤ v := by
  by_cases near : |zone.localOf v - zone.localOf after| ≤ maxCronScanMinutes * minuteNanos
  · exact next.2 v ⟨eligible, later, near⟩
  · have far := eligible.local_lt later
    have bound := (le_abs_self _).trans next.1.near
    rw [abs_of_pos (by omega)] at near
    exact next.1.eligible.le_of_local_le (by omega)

/-! ## The scan -/

/-- What the scan can find at a local time. -/
structure Found (chrono : Chrono) (expression : CronExpression) (zone : Zone)
    (startAt : Option Int) (after wall u : Int) : Prop where
  matched : cronMatches expression (chrono.clock wall) = true
  first : u ∈ zone.firstOf wall
  due : isDue after startAt u = true

theorem isDue_iff : isDue after startAt u = true ↔ after < u ∧ ∀ start ∈ startAt, start ≤ u := by
  cases startAt <;> simp [isDue]

/-- What a scan of so many minutes answers: for the first local time where there is
something to find, or that there is none. -/
def Scanned (chrono : Chrono) (automationId timezone : Text) (expression : CronExpression)
    (zone : Zone) (after : Int) (startAt endAt : Option Int) (left : Nat) (wall : Int)
    (result : Except String (Option Occurrence)) : Prop :=
  (∃ k < left, ∃ u, Found chrono expression zone startAt after (wall + k * minuteNanos) u ∧
    (∀ j < k, ∀ v, ¬ Found chrono expression zone startAt after (wall + j * minuteNanos) v) ∧
    result = answer chrono automationId timezone endAt (wall + k * minuteNanos) u) ∨
  ((∀ k < left, ∀ v, ¬ Found chrono expression zone startAt after (wall + k * minuteNanos) v) ∧
    result = .error "cron schedule has no occurrence in the scan window")

variable {automationId timezone : Text} {endAt : Option Int} {wall : Int}

/-- When there is nothing to find at a local time, the scan is that from the next minute on. -/
theorem Scanned.later {left : Nat} {result : Except String (Option Occurrence)}
    (nothing : ∀ v, ¬ Found chrono expression zone startAt after wall v)
    (scanned : Scanned chrono automationId timezone expression zone after startAt endAt left (wall + minuteNanos) result) :
    Scanned chrono automationId timezone expression zone after startAt endAt (left + 1) wall
      result := by
  have nothingHere : ∀ v,
      ¬ Found chrono expression zone startAt after (wall + ((0 : Nat) : Int) * minuteNanos) v := by
    rw [Int.natCast_zero, Int.zero_mul, Int.add_zero]
    exact nothing
  have shift : ∀ k : Nat, wall + minuteNanos + k * minuteNanos =
      wall + ((k + 1 : Nat) : Int) * minuteNanos := by
    intro k
    rw [Int.natCast_succ, Int.add_mul]
    omega
  rcases scanned with ⟨k, small, u, found, none, same⟩ | ⟨none, same⟩
  · left
    rw [shift] at found same
    refine ⟨k + 1, Nat.succ_lt_succ small, u, found, fun j before => ?_, same⟩
    cases j with
    | zero => exact nothingHere
    | succ j => exact shift j ▸ none j (Nat.lt_of_succ_lt_succ before)
  · right
    refine ⟨fun k small => ?_, same⟩
    cases k with
    | zero => exact nothingHere
    | succ k => exact shift k ▸ none k (Nat.lt_of_succ_lt_succ small)

variable (chrono expression zone startAt) in
theorem scan_scanned (automationId timezone : Text) (after : Int) (endAt : Option Int) (left : Nat)
    (wall : Int) :
    Scanned chrono automationId timezone expression zone after startAt endAt left wall
      (scan chrono automationId timezone expression zone after startAt endAt left wall) := by
  induction left generalizing wall with
  | zero => exact .inr ⟨fun k small => absurd small (Nat.not_lt_zero k), rfl⟩
  | succ left ih =>
    cases matched : cronMatches expression (chrono.clock wall) with
    | false =>
      rw [scan, matched]
      refine Scanned.later (fun v found => ?_) (ih _)
      exact Bool.false_ne_true (matched.symm.trans found.matched)
    | true =>
      cases found : (zone.firstOf wall).find? (isDue after startAt) with
      | none =>
        rw [scan, matched, found]
        refine Scanned.later (fun v here => ?_) (ih _)
        exact find?_eq_none.mp found v here.first here.due
      | some utc =>
        have start : wall + ((0 : Nat) : Int) * minuteNanos = wall := by
          rw [Int.natCast_zero, Int.zero_mul, Int.add_zero]
        refine .inl ⟨0, Nat.succ_pos left, utc, ?_,
          fun j before => absurd before (Nat.not_lt_zero j), ?_⟩
        · rw [start]
          exact ⟨matched, mem_of_find?_eq_some found, find?_some found⟩
        · rw [start, scan, matched, found]
          rfl

/-- The local minutes of the scan are the whole minutes near `after`. -/
theorem found_iff_upcoming :
    (∃ k < maxCronScanMinutes + 1, Found chrono expression zone startAt after
      (floorMinute (zone.localOf after) + k * minuteNanos) u) ↔
      Upcoming chrono expression zone startAt after u := by
  have positive : (0 : Int) < minuteNanos := by decide
  have floorLe := Int.emod_nonneg (zone.localOf after) positive.ne'
  have floorGt := Int.emod_lt_of_pos (zone.localOf after) positive
  constructor
  · rintro ⟨k, small, found⟩
    obtain ⟨later, started⟩ := isDue_iff.mp found.due
    obtain ⟨own, least⟩ := zone.mem_firstOf.mp found.first
    have whole : zone.localOf u % minuteNanos = 0 := by
      rw [own, Int.add_mul_emod_self_right]
      exact Int.emod_eq_zero_of_dvd (Int.dvd_self_sub_emod ..)
    have eligible : Eligible chrono expression zone startAt u :=
      ⟨whole, own ▸ found.matched, own ▸ least, started⟩
    refine ⟨eligible, later, ?_⟩
    have ahead := eligible.local_lt later
    rw [abs_of_pos (by omega), own, floorMinute]
    have bound : (k : Int) * minuteNanos ≤ maxCronScanMinutes * minuteNanos :=
      Int.mul_le_mul_of_nonneg_right (by omega) positive.le
    omega
  · intro upcoming
    have ahead := upcoming.eligible.local_lt upcoming.later
    have near := (le_abs_self _).trans upcoming.near
    -- Both are whole minutes, so the distance is a number of minutes.
    obtain ⟨k, distance⟩ : ∃ k, zone.localOf u - floorMinute (zone.localOf after) =
        k * minuteNanos := by
      have divides : minuteNanos ∣ zone.localOf u - floorMinute (zone.localOf after) :=
        Int.dvd_sub (Int.dvd_of_emod_eq_zero upcoming.eligible.whole)
          (Int.dvd_self_sub_emod ..)
      obtain ⟨k, same⟩ := divides
      exact ⟨k, by rw [same, Int.mul_comm]⟩
    have notBefore : 0 ≤ k := by
      by_contra negative
      have below : k * minuteNanos ≤ 0 :=
        Int.mul_nonpos_of_nonpos_of_nonneg (by omega) positive.le
      rw [floorMinute] at distance
      omega
    have inside : k < maxCronScanMinutes + 1 := by
      by_contra outside
      have above : (maxCronScanMinutes + 1 : Int) * minuteNanos ≤ k * minuteNanos :=
        Int.mul_le_mul_of_nonneg_right (by omega) positive.le
      rw [Int.add_mul] at above
      rw [floorMinute] at distance
      omega
    have atWall : floorMinute (zone.localOf after) + (k.toNat : Int) * minuteNanos =
        zone.localOf u := by
      rw [Int.toNat_of_nonneg notBefore]
      omega
    refine ⟨k.toNat, by omega, ?_⟩
    rw [atWall]
    exact ⟨upcoming.eligible.matched, zone.mem_firstOf.mpr ⟨rfl, upcoming.eligible.first⟩,
      isDue_iff.mpr ⟨upcoming.later, upcoming.eligible.started⟩⟩

/-- **The scan finds the next instant, or there is none.** -/
theorem scan_next (automationId timezone : Text) (after : Int) (endAt : Option Int) :
    (∃ u, IsNext chrono expression zone startAt after u ∧
      scan chrono automationId timezone expression zone after startAt endAt
          (maxCronScanMinutes + 1) (floorMinute (zone.localOf after)) =
        answer chrono automationId timezone endAt (zone.localOf u) u) ∨
    ((∀ u, ¬ Upcoming chrono expression zone startAt after u) ∧
      scan chrono automationId timezone expression zone after startAt endAt
          (maxCronScanMinutes + 1) (floorMinute (zone.localOf after)) =
        .error "cron schedule has no occurrence in the scan window") := by
  rcases scan_scanned chrono expression zone startAt automationId timezone after endAt
    (maxCronScanMinutes + 1) (floorMinute (zone.localOf after)) with
    ⟨k, small, u, found, nothing, result⟩ | ⟨nothing, result⟩
  · left
    have upcoming := found_iff_upcoming.mp ⟨k, small, found⟩
    have own := (zone.mem_firstOf.mp found.first).1
    refine ⟨u, ⟨upcoming, fun v other => ?_⟩, own ▸ result⟩
    obtain ⟨j, _, foundV⟩ := found_iff_upcoming.mpr other
    have ownV := (zone.mem_firstOf.mp foundV.first).1
    have order : k ≤ j := by
      by_contra before
      exact nothing j (Nat.not_le.mp before) v foundV
    refine upcoming.eligible.le_of_local_le ?_
    have scaled : (k : Int) * minuteNanos ≤ j * minuteNanos :=
      Int.mul_le_mul_of_nonneg_right (Int.ofNat_le.mpr order) (by decide)
    omega
  · right
    refine ⟨fun u upcoming => ?_, result⟩
    obtain ⟨k, small, found⟩ := found_iff_upcoming.mpr upcoming
    exact nothing k small u found

/-! ## Occurrences of a recurrence -/

section Recurrence

variable {cron timezone : Text} {endAt maxScheduledRuns : Option Int}
  (parsed : parseExpression cron = .ok expression)
  (zoned : timezoneOf chrono timezone = .ok zone)
include parsed zoned

/-- **`next_occurrence` is about the next instant, or there is none.** -/
theorem nextOccurrence_cases (automationId : Text) (after : Int) :
    (∃ u, IsNext chrono expression zone startAt after u ∧
      nextOccurrence chrono automationId
          (.recurring cron timezone startAt endAt maxScheduledRuns) after =
        answer chrono automationId timezone endAt (zone.localOf u) u) ∨
    ((∀ u, ¬ Upcoming chrono expression zone startAt after u) ∧
      nextOccurrence chrono automationId
          (.recurring cron timezone startAt endAt maxScheduledRuns) after =
        .error "cron schedule has no occurrence in the scan window") := by
  rw [nextOccurrence, parsed, zoned]
  exact scan_next automationId timezone after endAt

end Recurrence

/-- An instant within the end of a schedule is answered, another is not. -/
theorem answer_of_le (within : ∀ last ∈ endAt, u ≤ last) :
    answer chrono automationId timezone endAt wall u =
      .ok (some (occurrenceAt chrono automationId timezone wall u)) := by
  refine if_neg ?_
  cases endAt with
  | none => exact Bool.false_ne_true
  | some last => simpa using within last rfl

theorem answer_of_lt {last : Int} (ends : last ∈ endAt) (isOver : last < u) :
    answer chrono automationId timezone endAt wall u = .ok none := by
  subst ends
  exact if_pos (decide_eq_true isOver)

theorem IsNext.unique (one : IsNext chrono expression zone startAt after u)
    (other : IsNext chrono expression zone startAt after v) : u = v :=
  Int.le_antisymm (one.2 v other.1) (other.2 u one.1)

variable (chrono expression zone startAt) in
/-- The first eligible instants behind `after` and within the end, at most `count`. -/
structure FirstEligible (endAt : Option Int) (after : Int) (count : Nat) (instants : List Int) :
    Prop where
  increasing : instants.Pairwise (· < ·)
  eligible : ∀ u ∈ instants, Eligible chrono expression zone startAt u
  later : ∀ u ∈ instants, after < u
  within : ∀ u ∈ instants, ∀ last ∈ endAt, u ≤ last
  bounded : instants.length ≤ count
  complete : ∀ v, Eligible chrono expression zone startAt v → after < v →
    (∀ last ∈ endAt, v ≤ last) → v ∈ instants ∨ (instants.length = count ∧ ∀ u ∈ instants, u < v)

theorem FirstEligible.zero : FirstEligible chrono expression zone startAt endAt after 0 [] where
  increasing := .nil
  eligible := forall_mem_nil _
  later := forall_mem_nil _
  within := forall_mem_nil _
  bounded := Nat.le_refl 0
  complete _ _ _ _ := .inr ⟨rfl, forall_mem_nil _⟩

variable {count : Nat}

/-- Nothing is left when the next instant is over the end. -/
theorem FirstEligible.isOver {last : Int} (next : IsNext chrono expression zone startAt after u)
    (ends : last ∈ endAt) (isOver : last < u) :
    FirstEligible chrono expression zone startAt endAt after count [] where
  increasing := .nil
  eligible := forall_mem_nil _
  later := forall_mem_nil _
  within := forall_mem_nil _
  bounded := Nat.zero_le count
  complete v eligible later within := by
    have behind := next.le eligible later
    have inside := within last ends
    omega

variable {instants : List Int}

/-- The next instant, and the first ones behind it. -/
theorem FirstEligible.cons (next : IsNext chrono expression zone startAt after u)
    (inside : ∀ last ∈ endAt, u ≤ last)
    (rest : FirstEligible chrono expression zone startAt endAt u count instants) :
    FirstEligible chrono expression zone startAt endAt after (count + 1) (u :: instants) where
  increasing := pairwise_cons.mpr ⟨rest.later, rest.increasing⟩
  eligible := forall_mem_cons.mpr ⟨next.1.eligible, rest.eligible⟩
  later := forall_mem_cons.mpr
    ⟨next.1.later, fun v there => next.1.later.trans (rest.later v there)⟩
  within := forall_mem_cons.mpr ⟨inside, rest.within⟩
  bounded := Nat.succ_le_succ rest.bounded
  complete v eligible later within := by
    rcases (next.le eligible later).eq_or_lt with rfl | behind
    · exact .inl mem_cons_self
    · rcases rest.complete v eligible behind within with there | ⟨full, beyond⟩
      · exact .inl (mem_cons_of_mem u there)
      · exact .inr ⟨congrArg Nat.succ full, forall_mem_cons.mpr ⟨behind, beyond⟩⟩

/-- The local times of different instants of the list are in order. -/
theorem FirstEligible.local_increasing
    (first : FirstEligible chrono expression zone startAt endAt after count instants) :
    (instants.map zone.localOf).Pairwise (· < ·) := by
  rw [pairwise_map]
  refine first.increasing.imp_of_mem fun _ there earlier => ?_
  exact (first.eligible _ there).local_lt earlier

/-- Different whole minutes are written differently. -/
def Chrono.MinutesDistinct (chrono : Chrono) : Prop :=
  ∀ wall wall' : Int, wall % minuteNanos = 0 → wall' % minuteNanos = 0 →
    chrono.formatMinute wall = chrono.formatMinute wall' → wall = wall'

/-- The keys of the occurrences of different instants are different. -/
theorem FirstEligible.keys_nodup (distinct : chrono.MinutesDistinct) (timezone : Text)
    (first : FirstEligible chrono expression zone startAt endAt after count instants) :
    (instants.map fun u => occurrenceKey chrono timezone (zone.localOf u)).Nodup := by
  rw [List.Nodup, pairwise_map]
  refine (pairwise_map.mp first.local_increasing).imp_of_mem fun here there earlier same => ?_
  have texts := (List.cons.inj (append_cancel_left same)).2
  have equal := distinct _ _ (first.eligible _ here).whole (first.eligible _ there).whole texts
  exact earlier.ne equal

section Preview

variable {cron timezone : Text} {endAt maxScheduledRuns : Option Int}
  (parsed : parseExpression cron = .ok expression)
  (zoned : timezoneOf chrono timezone = .ok zone)
include parsed zoned

/-- **The preview is the first eligible instants; it fails where no further one is near.** -/
theorem previewFrom_cases (automationId : Text) (count : Nat) (after : Int) :
    (∃ instants, FirstEligible chrono expression zone startAt endAt after count instants ∧
      previewFrom chrono automationId (.recurring cron timezone startAt endAt maxScheduledRuns)
          count after =
        .ok (instants.map fun u =>
          occurrenceAt chrono automationId timezone (zone.localOf u) u)) ∨
    (∃ instants, instants.length < count ∧
      FirstEligible chrono expression zone startAt endAt after instants.length instants ∧
      (∀ u, ¬ Upcoming chrono expression zone startAt (instants.getLastD after) u) ∧
      previewFrom chrono automationId (.recurring cron timezone startAt endAt maxScheduledRuns)
          count after =
        .error "cron schedule has no occurrence in the scan window") := by
  induction count generalizing after with
  | zero => exact .inl ⟨[], .zero, rfl⟩
  | succ count ih =>
    rw [previewFrom]
    rcases nextOccurrence_cases parsed zoned automationId after with
      ⟨u, next, result⟩ | ⟨nothing, result⟩
    · rw [result]
      by_cases inside : ∀ last ∈ endAt, u ≤ last
      · rw [answer_of_le inside]
        rcases ih u with ⟨instants, first, later⟩ | ⟨instants, fewer, first, nothing, later⟩
        · refine .inl ⟨u :: instants, first.cons next inside, ?_⟩
          simp only [occurrenceAt] at later ⊢
          rw [later]
          rfl
        · refine .inr ⟨u :: instants, Nat.succ_lt_succ fewer, first.cons next inside, ?_, ?_⟩
          · rw [getLastD_cons]
            exact nothing
          · simp only [occurrenceAt] at later ⊢
            rw [later]
      · obtain ⟨last, ends, isOver⟩ : ∃ last ∈ endAt, last < u := by simpa using inside
        rw [answer_of_lt ends isOver]
        exact .inl ⟨[], .isOver next ends isOver, rfl⟩
    · rw [result]
      exact .inr ⟨[], Nat.succ_pos count, .zero, nothing, rfl⟩

end Preview

end Due

/-- What an accepted recurrence has passed. -/
theorem validateSchedule_ok {chrono : Chrono} {cron timezone : Text}
    {startAt endAt maxScheduledRuns : Option Int}
    (accepted : validateSchedule chrono
      (.recurring cron timezone startAt endAt maxScheduledRuns) = .ok ()) :
    ∃ expression zone, parseExpression cron = .ok expression ∧
      timezoneOf chrono timezone = .ok zone := by
  obtain ⟨expression, parsed, accepted⟩ := bind_ok accepted
  obtain ⟨zone, zoned, _⟩ := bind_ok accepted
  exact ⟨expression, zone, parsed, zoned⟩

/-- **An accepted recurrence is due at the eligible instants, and at no others.**
`next_occurrence` is the next one, unless that is over the end, and fails if none is
near; a preview is the first ones, each under a key of its own. -/
theorem recurrence_due_iff_eligible {chrono : Chrono} (distinct : chrono.MinutesDistinct)
    {cron timezone : Text} {startAt endAt maxScheduledRuns : Option Int}
    (accepted : validateSchedule chrono
      (.recurring cron timezone startAt endAt maxScheduledRuns) = .ok ()) (automationId : Text) :
    ∃ expression zone, parseExpression cron = .ok expression ∧
      timezoneOf chrono timezone = .ok zone ∧
      ∀ after,
        (∀ u, IsNext chrono expression zone startAt after u →
          ((∀ last ∈ endAt, u ≤ last) →
            nextOccurrence chrono automationId
                (.recurring cron timezone startAt endAt maxScheduledRuns) after =
              .ok (some (occurrenceAt chrono automationId timezone (zone.localOf u) u))) ∧
          (∀ last ∈ endAt, last < u →
            nextOccurrence chrono automationId
                (.recurring cron timezone startAt endAt maxScheduledRuns) after = .ok none)) ∧
        ((¬ ∃ u, IsNext chrono expression zone startAt after u) →
          ∃ message, nextOccurrence chrono automationId
            (.recurring cron timezone startAt endAt maxScheduledRuns) after = .error message) ∧
        ∀ count,
          (∃ instants, FirstEligible chrono expression zone startAt endAt after count instants ∧
            (instants.map fun u => occurrenceKey chrono timezone (zone.localOf u)).Nodup ∧
            previewOccurrences chrono automationId
                (.recurring cron timezone startAt endAt maxScheduledRuns) after count =
              .ok (instants.map fun u =>
                occurrenceAt chrono automationId timezone (zone.localOf u) u)) ∨
          (∃ instants message, instants.length < count ∧
            FirstEligible chrono expression zone startAt endAt after instants.length instants ∧
            (¬ ∃ u, IsNext chrono expression zone startAt (instants.getLastD after) u) ∧
            previewOccurrences chrono automationId
                (.recurring cron timezone startAt endAt maxScheduledRuns) after count =
              .error message) := by
  obtain ⟨expression, zone, parsed, zoned⟩ := validateSchedule_ok accepted
  refine ⟨expression, zone, parsed, zoned, fun after => ⟨fun u next => ?_, fun none => ?_,
    fun count => ?_⟩⟩
  · rcases nextOccurrence_cases parsed zoned automationId after with
      ⟨v, other, result⟩ | ⟨nothing, _⟩
    · obtain rfl := next.unique other
      exact ⟨fun within => result.trans (answer_of_le within),
        fun last ends isOver => result.trans (answer_of_lt ends isOver)⟩
    · exact absurd next.1 (nothing u)
  · rcases nextOccurrence_cases parsed zoned automationId after with
      ⟨v, other, _⟩ | ⟨_, result⟩
    · exact absurd ⟨v, other⟩ none
    · exact ⟨_, result⟩
  · rw [previewOccurrences, accepted]
    rcases previewFrom_cases parsed zoned automationId count after with
      ⟨instants, first, result⟩ | ⟨instants, fewer, first, nothing, result⟩
    · exact .inl ⟨instants, first, first.keys_nodup distinct timezone, result⟩
    · refine .inr ⟨instants, _, fewer, first, ?_, result⟩
      rintro ⟨u, next⟩
      exact nothing u next.1

/-- One zone without changes, and local times written in unary. -/
def sampleChrono : Chrono where
  zoneOf _ := some ⟨0, [], trivial⟩
  clock wall := ⟨(wall / minuteNanos % 60).toNat, (wall / (60 * minuteNanos) % 24).toNat, 1, 1, 0⟩
  formatMinute wall := List.replicate (if 0 ≤ wall then 2 * wall else -2 * wall - 1).toNat '1'
  rfc3339 _ := []

theorem sampleChrono_minutesDistinct : sampleChrono.MinutesDistinct := by
  intro wall wall' _ _ same
  have lengths := congrArg List.length same
  simp only [sampleChrono, length_replicate] at lengths
  split at lengths <;> split at lengths <;> omega

/-- Every quarter of an hour in the morning, up to some instant. -/
theorem recurrence_due_iff_eligible_quarters :
    validateSchedule sampleChrono (.recurring "*/15 0-11 * * *".toList "UTC".toList (some 0)
      (some (5 * minuteNanos)) none) = .ok () ∧
    ∃ expression zone, ∀ u, IsNext sampleChrono expression zone (some 0) 0 u →
      5 * minuteNanos < u →
        nextOccurrence sampleChrono [] (.recurring "*/15 0-11 * * *".toList "UTC".toList (some 0)
          (some (5 * minuteNanos)) none) 0 = .ok none := by
  have accepted : validateSchedule sampleChrono (.recurring "*/15 0-11 * * *".toList "UTC".toList
      (some 0) (some (5 * minuteNanos)) none) = .ok () := by decide +kernel
  refine ⟨accepted, ?_⟩
  obtain ⟨expression, zone, _, _, due⟩ :=
    recurrence_due_iff_eligible sampleChrono_minutesDistinct accepted []
  exact ⟨expression, zone, fun u next isOver => ((due 0).1 u next).2 _ rfl isOver⟩

end Alera.Automation.Schedules
