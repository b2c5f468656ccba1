/-
# Alera.Terminal.PagedReads -- reading a terminal page by page

`terminal.read` (`server/requests.rs`) answers a window of the scrollback that
starts at a cursor and is moved so that it cuts no character: the start goes
behind a character it lies in, and the end forward to where the last character
is complete, or back to where an incomplete one begins when the output stops
there.

A client that continues at the `nextCursor` of the previous answer reads the
stream: `History` is what holds between two requests, whatever the output and
however it grows.  The start is never moved, because the previous end was put
where no character can begin before it and end behind it (`alignEnd_outside`),
also none that later output completes.
-/
import Alera.Terminal.Session
import Alera.Theory.Runs
import Alera.Theory.Utf8Validation

namespace Alera.Terminal

open Theory List Utf8

set_option autoImplicit false

/-! ## The window -/

/-- `terminal_read_window`: requested, start and next cursor. -/
def terminalReadWindow (baseCursor endCursor : Nat) (cursor : Option Nat) (maxBytes : Nat) :
    Nat × Nat × Nat :=
  let requested := cursor.getD (max (endCursor - maxBytes) baseCursor)
  let start := max baseCursor (min requested endCursor)
  let next := min (saturatingAdd start maxBytes) endCursor
  (requested, start, next)

open ScrollbackBuffer (isUtf8Continuation)

/-- The inner loop of `containing_utf8_scalar_end`, over the ends from `end_` on. -/
def scalarEndFrom (bytes : List UInt8) (lead last : Nat) : Nat → Nat → Option Nat
  | 0, _ => none
  | fuel + 1, end_ =>
    if last < end_ then none
    else match fromUtf8 (slice bytes lead end_) with
      | .ok () => some end_
      | .error _ => scalarEndFrom bytes lead last fuel (end_ + 1)

/-- The outer loop, backwards from `index` to `searchStart`. -/
def scalarEndBehind (bytes : List UInt8) (index searchStart : Nat) : Nat → Option Nat
  | 0 => none
  | lead + 1 =>
    if lead < searchStart then none
    else if isUtf8Continuation (bytes.getD lead 0) then scalarEndBehind bytes index searchStart lead
    else scalarEndFrom bytes lead (min (lead + 4) bytes.length) 4 (index + 1)

/-- `containing_utf8_scalar_end`. -/
def containingUtf8ScalarEnd (bytes : List UInt8) (index : Nat) : Option Nat :=
  if index ≥ bytes.length ∨ !isUtf8Continuation (bytes.getD index 0) then none
  else scalarEndBehind bytes index (index - 3) index

/-- The loop of `trailing_incomplete_utf8_start`.  Every round moves the offset
forward, so the length of the input is enough fuel. -/
def incompleteFrom (bytes : List UInt8) : Nat → Nat → Option Nat
  | 0, _ => none
  | fuel + 1, offset =>
    if offset < bytes.length then
      match fromUtf8 (bytes.drop offset) with
      | .ok () => none
      | .error error =>
        match error.errorLen with
        | some length => incompleteFrom bytes fuel (offset + error.validUpTo + length)
        | none => some (offset + error.validUpTo)
    else none

/-- `trailing_incomplete_utf8_start`. -/
def trailingIncompleteUtf8Start (bytes : List UInt8) : Option Nat :=
  incompleteFrom bytes bytes.length 0

/-- The loop of `align_terminal_text_window` that moves the end. -/
def alignEnd (bytes : List UInt8) (start : Nat) : Nat → Nat → Nat
  | 0, end_ => end_
  | fuel + 1, end_ =>
    match trailingIncompleteUtf8Start (slice bytes start end_) with
    | none => end_
    | some incompleteAt =>
      if end_ < bytes.length then alignEnd bytes start fuel (end_ + 1)
      else start + incompleteAt

/-- `align_terminal_text_window`. -/
def alignTerminalTextWindow (bytes : List UInt8) (baseCursor startCursor nextCursor : Nat) :
    Nat × Nat :=
  let start := startCursor - baseCursor
  let end_ := nextCursor - baseCursor
  let start := (containingUtf8ScalarEnd bytes start).getD start
  let end_ := min (max end_ start) bytes.length
  let end_ := alignEnd bytes start (bytes.length - end_ + 1) end_
  (baseCursor + start, baseCursor + end_)

/-- The answer of `terminal.read`; its `text` is the lossy decoding of the data. -/
structure ReadAnswer where
  baseCursor : Nat
  cursor : Nat
  nextCursor : Nat
  truncated : Bool
  data : List UInt8
deriving DecidableEq

/-- `terminal.read` on a session that exists. -/
def terminalRead (session : Session) (cursor maxBytes : Option Nat) : ReadAnswer :=
  let maxBytes := max (maxBytes.getD 65536) 1
  let bytes := session.buffer.toBytes
  let (baseCursor, endCursor) := session.outputStreamRange
  let (requested, startCursor, nextCursor) :=
    terminalReadWindow baseCursor endCursor cursor maxBytes
  let (startCursor, nextCursor) :=
    alignTerminalTextWindow bytes baseCursor startCursor nextCursor
  { baseCursor
    cursor := startCursor
    nextCursor
    truncated := decide (requested < baseCursor)
    data := slice bytes (startCursor - baseCursor) (nextCursor - baseCursor) }

/-! ## Where the window ends -/

theorem isUtf8Continuation_iff (byte : UInt8) : isUtf8Continuation byte = true ↔ IsTail byte := by
  have all : ∀ n : Fin 256, isUtf8Continuation (UInt8.ofNat n) = true ↔
      0x80 ≤ n.val ∧ n.val ≤ 0xBF := by decide +kernel
  have here := all ⟨byte.toNat, byte.toNat_lt⟩
  rwa [UInt8.ofNat_toNat] at here

variable {bytes : List UInt8} {fuel : Nat}

/-- An incomplete scalar is found, or there is none from the offset on. -/
theorem incompleteFrom_spec {offset : Nat} (enough : bytes.length - offset ≤ fuel) :
    (∃ a, incompleteFrom bytes fuel offset = some a ∧ IsScalarStart (bytes.drop a)) ∨
    (incompleteFrom bytes fuel offset = none ∧ ∀ a, offset ≤ a → ¬ IsScalarStart (bytes.drop a)) := by
  have short : ∀ a, bytes.length ≤ a → ¬ IsScalarStart (bytes.drop a) :=
    fun a past start => start.1 (drop_of_length_le past)
  induction fuel generalizing offset with
  | zero => exact .inr ⟨rfl, fun a behind => short a (by omega)⟩
  | succ fuel ih =>
    rw [incompleteFrom]
    split
    next more =>
      obtain ⟨ok, scalars⟩ | ⟨v, n, failed, positive, later⟩ | ⟨v, failed, start⟩ :=
        validate_spec (Nat.le_refl (bytes.drop offset).length)
      · refine .inr ⟨by simp only [fromUtf8, ok], fun a behind => ?_⟩
        rw [← Nat.add_sub_cancel' behind, ← drop_drop]
        exact scalars.not_isScalarStart _
      · simp only [fromUtf8, failed]
        refine (ih (by omega)).imp_right fun ⟨none_, rest⟩ => ⟨none_, fun a behind start => ?_⟩
        rw [← Nat.add_sub_cancel' behind, ← drop_drop] at start
        have beyond := later _ start
        rw [drop_drop] at start
        exact rest _ (by omega) start
      · refine .inl ⟨offset + v, by simp only [fromUtf8, failed], ?_⟩
        rwa [← drop_drop]
    · exact .inr ⟨rfl, fun a behind => short a (by omega)⟩

variable {end_ : Nat}

/-- Where the loop stops: at an end no scalar of the window runs over, or where the
scalar begins that the output ends in. -/
theorem alignEnd_spec {start : Nat} (ordered : start ≤ end_) (within : end_ ≤ bytes.length)
    (enough : bytes.length - end_ < fuel) :
    start ≤ alignEnd bytes start fuel end_ ∧ alignEnd bytes start fuel end_ ≤ bytes.length ∧
      ((end_ ≤ alignEnd bytes start fuel end_ ∧
          ∀ a, ¬ IsScalarStart ((slice bytes start (alignEnd bytes start fuel end_)).drop a)) ∨
        IsScalarStart (bytes.drop (alignEnd bytes start fuel end_))) := by
  induction fuel generalizing end_ with
  | zero => omega
  | succ fuel ih =>
    rw [alignEnd, trailingIncompleteUtf8Start]
    obtain ⟨incompleteAt, found, begins⟩ | ⟨found, whole⟩ :=
      @incompleteFrom_spec (slice bytes start end_) _ 0 (Nat.sub_le _ _)
    · simp only [found]
      by_cases more : end_ < bytes.length
      · rw [if_pos more]
        obtain ⟨lower, upper, stops⟩ := ih (show start ≤ end_ + 1 by omega) (by omega) (by omega)
        refine ⟨lower, upper, stops.imp_left fun ⟨moved, whole⟩ => ⟨by omega, whole⟩⟩
      · rw [if_neg more]
        obtain rfl : end_ = bytes.length := by omega
        rw [drop_slice, slice, take_of_length_le (by rw [length_drop])] at begins
        have inside : start + incompleteAt < bytes.length := by
          by_contra past
          exact begins.1 (drop_of_length_le (by omega))
        exact ⟨by omega, by omega, .inr begins⟩
    · simp only [found]
      exact ⟨ordered, within, .inl ⟨Nat.le_refl _, fun a => whole a (Nat.zero_le a)⟩⟩

/-- A window that starts outside every scalar ends outside every scalar, also of
those that later output completes. -/
theorem outside_of_alignEnd {later : List UInt8} {start : Nat}
    (outside : ¬ InsideScalar (bytes ++ later) start) (ordered : start ≤ end_)
    (within : end_ ≤ bytes.length)
    (stops : (∀ a, ¬ IsScalarStart ((slice bytes start end_).drop a)) ∨ IsScalarStart (bytes.drop end_)) :
    ¬ InsideScalar (bytes ++ later) end_ := by
  intro inside
  rcases stops with whole | begins
  · obtain ⟨first, last, before, behind, bounded, scalar⟩ := inside
    -- The scalar begins in the window, where the end leaves it incomplete.
    have starts : start ≤ first := by
      by_contra earlier
      exact outside ⟨first, last, by omega, by omega, bounded, scalar⟩
    apply whole (first - start)
    rw [drop_slice, Nat.add_sub_cancel' starts, ← slice_append_left later within]
    have cut := slice_append_slice (bytes ++ later) (Nat.le_of_lt before) (Nat.le_of_lt behind)
    refine ⟨?_, _, ?_, cut ▸ scalar⟩
    · apply ne_nil_of_length_pos
      rw [slice_length_eq _ (by omega)]
      omega
    · apply ne_nil_of_length_pos
      rw [slice_length_eq _ bounded]
      omega
  · -- The end is where a scalar begins, so it has no continuation byte there.
    obtain ⟨byte, here, tail⟩ := inside.isTail
    match rest : bytes.drop end_ with
    | [] => exact (rest ▸ begins).1 rfl
    | first :: tails =>
      have head := congrArg List.head? rest
      have inBytes : end_ < bytes.length := by
        by_contra past
        rw [drop_of_length_le (Nat.not_lt.mp past)] at rest
        cases rest
      rw [getElem?_append_left inBytes] at here
      rw [head?_drop, here] at head
      cases head
      rw [rest] at begins
      exact begins.not_isTail.1 tail

/-! ## Where the window starts -/

variable {found : Nat}

theorem scalarEndFrom_some {lead last : Nat}
    (some_ : scalarEndFrom bytes lead last fuel end_ = some found) :
    Scalars (slice bytes lead found) ∧ end_ ≤ found ∧ found ≤ last := by
  induction fuel generalizing end_ with
  | zero => cases some_
  | succ fuel ih =>
    obtain ⟨within, some_⟩ := of_unless some_
    obtain ⟨ok, scalars⟩ | ⟨v, n, failed, -⟩ | ⟨v, failed, -⟩ :=
      validate_spec (Nat.le_refl (slice bytes lead end_).length)
    · simp only [fromUtf8, ok] at some_
      cases some_
      exact ⟨scalars, Nat.le_refl _, by omega⟩
    all_goals
      simp only [fromUtf8, failed] at some_
      obtain ⟨scalars, lower, upper⟩ := ih some_
      exact ⟨scalars, by omega, upper⟩

theorem scalarEndBehind_some {index searchStart : Nat}
    (some_ : scalarEndBehind bytes index searchStart fuel = some found) :
    ∃ lead, lead < fuel ∧ Scalars (slice bytes lead found) ∧ index < found ∧ found ≤ bytes.length := by
  induction fuel with
  | zero => cases some_
  | succ lead ih =>
    obtain ⟨_, some_⟩ := of_unless some_
    split at some_
    · obtain ⟨earlier, before, rest⟩ := ih some_
      exact ⟨earlier, by omega, rest⟩
    · obtain ⟨scalars, lower, upper⟩ := scalarEndFrom_some some_
      exact ⟨lead, Nat.lt_succ_self _, scalars, lower, by omega⟩

/-- The start is moved only out of a scalar. -/
theorem containingUtf8ScalarEnd_some {index : Nat}
    (some_ : containingUtf8ScalarEnd bytes index = some found) : InsideScalar bytes index := by
  obtain ⟨here, some_⟩ := of_unless some_
  obtain ⟨within, continuation⟩ : index < bytes.length ∧
      isUtf8Continuation (bytes.getD index 0) = true := by simpa using here
  obtain ⟨lead, before, scalars, behind, bounded⟩ := scalarEndBehind_some some_
  have inSlice : (slice bytes lead found)[index - lead]? = some (bytes.getD index 0) := by
    rw [getElem?_slice bytes (by omega), Nat.add_sub_cancel' (by omega), getD_eq_getElem?_getD, getElem?_eq_getElem within, Option.getD_some]
  have inside := (scalars.insideScalar inSlice
    ((isUtf8Continuation_iff _).mp continuation)).of_slice bounded
  rwa [Nat.add_sub_cancel' (by omega)] at inside

/-- What `align_terminal_text_window` makes of a window that starts outside every scalar. -/
theorem alignTerminalTextWindow_spec {start next : Nat} (outside : ¬ InsideScalar bytes start)
    (ordered : start ≤ next) (within : next ≤ bytes.length) :
    ∃ end_, alignTerminalTextWindow bytes 0 start next = (start, end_) ∧
      start ≤ end_ ∧ end_ ≤ bytes.length ∧
      (∀ later, ¬ InsideScalar (bytes ++ later) start → ¬ InsideScalar (bytes ++ later) end_) ∧
      (start < next → end_ = start → IsScalarStart (bytes.drop start)) := by
  have stays : containingUtf8ScalarEnd bytes start = none := by
    cases moved : containingUtf8ScalarEnd bytes start with
    | none => rfl
    | some _ => exact absurd (containingUtf8ScalarEnd_some moved) outside
  obtain ⟨lower, upper, stops⟩ := alignEnd_spec ordered within (Nat.lt_succ_self _)
  refine ⟨_, ?_, lower, upper, fun later outsideLater => ?_, fun more empty => ?_⟩
  · simp only [alignTerminalTextWindow, Nat.sub_zero, stays, Option.getD_none, Nat.zero_add,
      Nat.max_eq_left ordered, Nat.min_eq_left within]
  · exact outside_of_alignEnd outsideLater lower upper (stops.imp_left And.right)
  · rcases stops with ⟨moved, -⟩ | begins
    · omega
    · exact empty ▸ begins

/-! ## Reading on -/

/-- What happens to a session that one client reads page by page. -/
inductive PageEvent where
  | output (data : List UInt8)
  | read (maxBytes : Option Nat)

/-- A session and the cursor its reader continues at. -/
structure Paging where
  session : Session
  cursor : Nat

/-- The answer to a request, if the event is one. -/
def Paging.serve (paging : Paging) : PageEvent → Option ReadAnswer × Paging
  | .output data => (none, { paging with session := (paging.session.appendOutput data).1 })
  | .read maxBytes =>
    let answer := terminalRead paging.session (some paging.cursor) maxBytes
    (some answer, { paging with cursor := answer.nextCursor })

open Paging (serve)

/-- The output among the events. -/
def outputOf (events : List PageEvent) : List UInt8 :=
  events.flatMap fun event =>
    match event with
    | .output data => data
    | .read _ => []

/-- The bytes that the answers carried. -/
def windowsOf (answers : List (Option ReadAnswer)) : List UInt8 :=
  answers.flatMap fun answer => (answer.map ReadAnswer.data).getD []

/-- Between two events, while nothing was trimmed: the buffer is the whole stream and
the cursor lies outside every scalar that the stream has or can have. -/
structure Follows (capacity : Nat) (stream : List UInt8) (paging : Paging) : Prop where
  capacity : paging.session.buffer.maxBytes = capacity
  buffered : paging.session.buffer.toBytes = stream
  counted : paging.session.outputStreamBytes = stream.length
  cursor : paging.cursor ≤ stream.length
  outside : ∀ later, ¬ InsideScalar (stream ++ later) paging.cursor

variable {capacity : Nat} {initial : List UInt8}

theorem Follows.start (fits : initial.length ≤ capacity) {position : Nat}
    (first : position ≤ initial.length) (nextSequence : Int) :
    Follows capacity initial ⟨Session.start capacity initial position nextSequence, 0⟩ where
  capacity := by
    show (ScrollbackBuffer.new capacity initial).maxBytes = capacity
    unfold ScrollbackBuffer.new
    split
    · rfl
    · rw [ScrollbackBuffer.append_maxBytes]
  buffered := by
    show (ScrollbackBuffer.new capacity initial).toBytes = initial
    rw [ScrollbackBuffer.new_toBytes, rtake_of_length_le fits]
  counted := Nat.max_eq_right first
  cursor := Nat.zero_le _
  outside := by
    rintro later ⟨_, _, before, -⟩
    exact absurd before (Nat.not_lt_zero _)

variable {paging : Paging}

theorem Follows.output {stream data : List UInt8} (follows : Follows capacity stream paging)
    (fits : (stream ++ data).length ≤ capacity) (word : capacity ≤ u64Max) :
    Follows capacity (stream ++ data) (paging.serve (.output data)).2 where
  capacity := by
    show (paging.session.buffer.append data).maxBytes = capacity
    rw [ScrollbackBuffer.append_maxBytes, follows.capacity]
  buffered := by
    show (paging.session.buffer.append data).toBytes = stream ++ data
    rw [ScrollbackBuffer.append_toBytes, follows.buffered, follows.capacity,
      rtake_of_length_le fits]
  counted := by
    show saturatingAdd paging.session.outputStreamBytes data.length = _
    rw [length_append] at fits ⊢
    rw [follows.counted, saturatingAdd_of_le (by omega)]
  cursor := by
    show paging.cursor ≤ _
    have old := follows.cursor
    rw [length_append]
    omega
  outside := by
    intro later
    rw [append_assoc]
    exact follows.outside (data ++ later)

/-- One request: the window starts where it was asked to, is a part of the stream, ends
outside every scalar, and is empty only at the end of what can be read. -/
theorem Follows.terminalRead {stream : List UInt8} (follows : Follows capacity stream paging)
    (fits : stream.length ≤ capacity) (word : capacity ≤ u64Max) (maxBytes : Option Nat) :
    ∃ end_, terminalRead paging.session (some paging.cursor) maxBytes =
        ⟨0, paging.cursor, end_, false, slice stream paging.cursor end_⟩ ∧
      paging.cursor ≤ end_ ∧ end_ ≤ stream.length ∧
      (∀ later, ¬ InsideScalar (stream ++ later) end_) ∧
      (end_ = paging.cursor →
        stream.drop paging.cursor = [] ∨ IsScalarStart (stream.drop paging.cursor)) := by
  have range : paging.session.outputStreamRange = (0, stream.length) := by
    rw [Session.outputStreamRange, ← ScrollbackBuffer.toBytes_length, follows.buffered,
      follows.counted, Nat.sub_self]
  have inStream := follows.cursor
  generalize size : max (maxBytes.getD 65536) 1 = count
  have window : terminalReadWindow 0 stream.length (some paging.cursor) count =
      (paging.cursor, paging.cursor, min (saturatingAdd paging.cursor count) stream.length) := by
    simp only [terminalReadWindow, Option.getD_some, Nat.min_eq_left inStream, Nat.zero_max]
  have next : paging.cursor ≤ min (saturatingAdd paging.cursor count) stream.length := by
    simp only [saturatingAdd]
    omega
  have here : ¬ InsideScalar stream paging.cursor := by
    simpa only [append_nil] using follows.outside []
  obtain ⟨end_, aligned, lower, upper, outside, empty⟩ :=
    alignTerminalTextWindow_spec here next (Nat.min_le_right _ _)
  refine ⟨end_, ?_, lower, upper, fun later => outside later (follows.outside later), fun same => ?_⟩
  · simp only [Alera.Terminal.terminalRead, range, size, window, follows.buffered, aligned,
      Nat.not_lt_zero, decide_false, Nat.sub_zero]
  · by_cases unread : paging.cursor = stream.length
    · exact .inl (drop_of_length_le (Nat.le_of_eq unread.symm))
    · refine .inr (empty ?_ same)
      simp only [saturatingAdd]
      omega

/-! ## Whole runs -/

theorem outputOf_append (events more : List PageEvent) :
    outputOf (events ++ more) = outputOf events ++ outputOf more :=
  flatMap_append

/-- The invariant after any events that did not fill the buffer. -/
theorem follows_after (start : Follows capacity initial paging) (word : capacity ≤ u64Max)
    (events : List PageEvent) (fits : (initial ++ outputOf events).length ≤ capacity) :
    Follows capacity (initial ++ outputOf events) (transduce serve paging events).2 := by
  have steps : ∀ past paging event,
      ((initial ++ outputOf past).length ≤ capacity →
        Follows capacity (initial ++ outputOf past) paging) →
      (initial ++ outputOf (past ++ [event])).length ≤ capacity →
        Follows capacity (initial ++ outputOf (past ++ [event])) (paging.serve event).2 := by
    intro past paging event before fits
    have follows := before (by
      rw [outputOf_append, ← append_assoc, length_append] at fits
      omega)
    cases event with
    | output data =>
      have longer : initial ++ outputOf (past ++ [.output data]) =
          (initial ++ outputOf past) ++ data := by simp [outputOf]
      rw [longer] at fits ⊢
      exact follows.output fits word
    | read maxBytes =>
      have same : initial ++ outputOf (past ++ [.read maxBytes]) = initial ++ outputOf past := by
        simp [outputOf]
      rw [same] at fits ⊢
      obtain ⟨end_, answered, -, upper, outside, -⟩ := follows.terminalRead fits word maxBytes
      refine ⟨follows.capacity, follows.buffered, follows.counted, ?_, ?_⟩
      · simp only [serve, answered]
        exact upper
      · simp only [serve, answered]
        exact outside
  have initially : (initial ++ outputOf []).length ≤ capacity →
      Follows capacity (initial ++ outputOf []) paging := by
    intro _
    simpa [outputOf] using start
  exact transduce_history
    (fun past paging => (initial ++ outputOf past).length ≤ capacity →
      Follows capacity (initial ++ outputOf past) paging)
    steps initially events fits

/-- Together, the windows are the stream up to the cursor. -/
theorem windowsOf_eq_take (start : Follows capacity initial paging) (first : paging.cursor = 0)
    (word : capacity ≤ u64Max) (events : List PageEvent)
    (fits : (initial ++ outputOf events).length ≤ capacity) :
    windowsOf (transduce serve paging events).1 =
      (initial ++ outputOf events).take (transduce serve paging events).2.cursor := by
  induction events using List.reverseRecOn with
  | nil => simp [transduce, windowsOf, first]
  | append_singleton events event ih =>
    have fitsBefore : (initial ++ outputOf events).length ≤ capacity := by
      rw [outputOf_append, ← append_assoc, length_append] at fits
      omega
    have follows := follows_after start word events fitsBefore
    have before := ih fitsBefore
    rw [transduce_append, windowsOf, flatMap_append, ← windowsOf, before]
    cases event with
    | output data =>
      simp only [transduce, serve, flatMap_cons, flatMap_nil, Option.map_none,
        Option.getD_none, append_nil, outputOf_append]
      rw [← append_assoc, take_append_of_le_length follows.cursor]
    | read maxBytes =>
      obtain ⟨end_, answered, lower, -⟩ := follows.terminalRead fitsBefore word maxBytes
      have same : initial ++ outputOf (events ++ [.read maxBytes]) =
          initial ++ outputOf events := by simp [outputOf]
      simp only [transduce, serve, answered, flatMap_cons, flatMap_nil,
        Option.map_some, Option.getD_some, append_nil, same]
      rw [slice, ← take_add, Nat.add_sub_cancel' lower]

/-- **Paged reads reproduce the stream.**  A client starts at cursor 0 of a session that
holds its stream from the beginning and continues at each `nextCursor`; output arrives
in between, in any pieces, and is never trimmed.  The windows together are the
beginning of the stream.  Every answer starts at the cursor it was asked for, and starts
and ends outside every scalar of the whole stream, also of what arrives later; it is
empty only if what is unread is nothing or the beginning of a scalar. -/
theorem paged_reads_reproduce_stream (capacity : Nat) (initial : List UInt8) (position : Nat)
    (nextSequence : Int) (events : List PageEvent)
    (fromStart : position ≤ initial.length)
    (untrimmed : (initial ++ outputOf events).length ≤ capacity) (word : capacity ≤ u64Max) :
    windowsOf (transduce serve
        ⟨Session.start capacity initial position nextSequence, 0⟩ events).1 <+:
      initial ++ outputOf events ∧
    ∀ before maxBytes after, events = before ++ .read maxBytes :: after →
      ∃ paging answer,
        (transduce serve
          ⟨Session.start capacity initial position nextSequence, 0⟩ before).2 = paging ∧
        terminalRead paging.session (some paging.cursor) maxBytes = answer ∧
        answer.cursor = paging.cursor ∧
        ¬ InsideScalar (initial ++ outputOf events) answer.cursor ∧
        ¬ InsideScalar (initial ++ outputOf events) answer.nextCursor ∧
        (answer.data = [] →
          (initial ++ outputOf before).drop paging.cursor = [] ∨
            IsScalarStart ((initial ++ outputOf before).drop paging.cursor)) := by
  have fitsInitial : initial.length ≤ capacity := by
    rw [length_append] at untrimmed
    omega
  have start := Follows.start fitsInitial fromStart nextSequence
  constructor
  · rw [windowsOf_eq_take start rfl word events untrimmed]
    exact take_prefix _ _
  · rintro before maxBytes after rfl
    have longer : initial ++ outputOf (before ++ .read maxBytes :: after) =
        (initial ++ outputOf before) ++ outputOf after := by simp [outputOf]
    rw [longer] at untrimmed ⊢
    have fitsBefore : (initial ++ outputOf before).length ≤ capacity := by
      rw [length_append] at untrimmed
      omega
    have follows := follows_after start word before fitsBefore
    obtain ⟨end_, answered, lower, upper, outside, empty⟩ :=
      follows.terminalRead fitsBefore word maxBytes
    refine ⟨_, _, rfl, answered, rfl, follows.outside _, outside _, fun noData => empty ?_⟩
    have length := congrArg List.length noData
    rw [slice_length_eq _ upper, length_nil] at length
    omega

example :
    ((transduce serve ⟨Session.start 16 [0x61] 0 1, 0⟩
      [.read (some 1), .output [0xE2, 0x82], .read (some 1), .output [0xAC], .read (some 1)]).1.map
        (Option.map ReadAnswer.data)) =
      [some [0x61], none, some [], none, some [0xE2, 0x82, 0xAC]] := by decide +kernel

/-- A euro sign that arrives in two pieces, read a byte at a time. -/
theorem paged_reads_reproduce_stream_split :
    windowsOf (transduce serve ⟨Session.start 16 [0x61] 0 1, 0⟩
        [.read (some 1), .output [0xE2, 0x82], .read (some 1), .output [0xAC], .read (some 1)]).1 <+:
      [0x61, 0xE2, 0x82, 0xAC] :=
  (paged_reads_reproduce_stream 16 [0x61] 0 1
    [.read (some 1), .output [0xE2, 0x82], .read (some 1), .output [0xAC], .read (some 1)]
    (by decide) (by decide) (by decide)).1

end Alera.Terminal
