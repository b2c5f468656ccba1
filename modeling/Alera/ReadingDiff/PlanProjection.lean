/-
# Alera.ReadingDiff.PlanProjection -- what a plan can do to a diff

A reading diff is the diff with some rows dropped, some folded into one and some
shortened.  `Projects` says so line by line: every line of the diff has an edit, each
edit has a reason (`Justified`), and the reading diff is what the edits leave.

* `Passed.projects`: what the compiler returns is the projection by `editsOf`.
* `Passed.structuralLines_eq`: which structural lines are left does not depend on the plan.

A replacement puts the new text in the place of one match of the old text.  Matches are
looked for from left to right without overlaps, so this may not be the only place where
the old text stands (`compile_readsAsPlanned_iff`).
-/
import Alera.ReadingDiff.PlanCompiler

namespace Alera.ReadingDiff

open Theory List Utf8
open Option (getD_some map_some)
open Cloud (trim byteLength)
open List (getD_eq_getElem?_getD getElem?_map length_map mem_of_getElem?)

set_option autoImplicit false

/-! ## Edits -/

/-- What happens to a line. -/
inductive LineEdit where
  | keep
  | drop
  | fold (range : LineRange)
  /-- The old text is replaced between `before` and `after`. -/
  | replace (replacement : LineReplacement) (before after : Text)

/-- What is left of a line. -/
def LineEdit.render (line : SourceLine) : LineEdit → Bytes
  | .keep => line.text ++ line.eol
  | .drop => []
  | .fold _ => line.text.take 1 ++ indentation (sourceBody line) ++ ascii "..." ++ line.eol
  | .replace replacement before after =>
    line.text.take 1 ++ encodeUtf8 (before ++ (replacement.new ++ after)) ++ line.eol

/-- The line of an index belongs to a range. -/
def LineRange.Covers (range : LineRange) (index : Nat) : Prop :=
  range.startLine ≤ index + 1 ∧ index + 1 ≤ range.endLine

/-- Rows of one hunk with one marker, at least two. -/
structure IsFold (lines : List SourceLine) (range : LineRange) : Prop where
  first : 0 < range.startLine
  several : range.startLine < range.endLine
  inside : range.endLine ≤ lines.length
  rows : ∀ index, range.Covers index → ∃ line, lines[index]? = some line ∧
    line.kind = .hunkSource ∧
    line.fileId = (lineAt lines range.startLine).fileId ∧
    line.hunkId = (lineAt lines range.startLine).hunkId ∧
    line.marker = (lineAt lines range.startLine).marker

/-- The new text is pieces of the old text, in order, with ellipses between them. -/
def IsProjection (new old : Text) : Prop :=
  ∃ pieces : List Text, 1 < pieces.length ∧ normalizeEllipses new = List.intercalate ellipsis pieces ∧
    OccurInOrder (pieces.filter fun piece => !piece.isEmpty) old

/-- Why a line is edited as it is. -/
inductive Justified (lines : List SourceLine) (plan : Plan) (edits : List LineEdit) (index : Nat)
    (line : SourceLine) : LineEdit → Prop
  | keep : Justified lines plan edits index line .keep
  | row : line.kind = .hunkSource → Justified lines plan edits index line .drop
  | noNewline {previous : Nat} : line.kind = .noNewline → index = previous + 1 →
      edits[previous]? = some .drop → Justified lines plan edits index line .drop
  | automatic : (automaticMask lines)[index]? = some true →
      Justified lines plan edits index line .drop
  | fold {range : LineRange} : range ∈ plan.fold → range.startLine = index + 1 →
      IsFold lines range →
      (∀ later, range.Covers later → later ≠ index → edits[later]? = some .drop) →
      Justified lines plan edits index line (.fold range)
  | replace {replacement : LineReplacement} {before after : Text} : replacement ∈ plan.replace →
      replacement.line = index + 1 → line.kind = .hunkSource →
      decodeUtf8 (sourceBody line) = some (before ++ (replacement.old ++ after)) →
      byteLength replacement.new < byteLength replacement.old →
      IsProjection replacement.new replacement.old →
      Justified lines plan edits index line (.replace replacement before after)

/-- The reading diff is what the edits leave of the lines, and every replacement of the plan
is among the edits. -/
structure Projects (lines : List SourceLine) (plan : Plan) (readingDiff : Bytes)
    (edits : List LineEdit) : Prop where
  each : edits.length = lines.length
  output : readingDiff = (lines.zip edits).flatMap fun row => row.2.render row.1
  justified : ∀ index line edit, lines[index]? = some line → edits[index]? = some edit →
    Justified lines plan edits index line edit
  replaced : ∀ replacement ∈ plan.replace, ∃ before after,
    edits[replacement.line - 1]? = some (.replace replacement before after)

/-- The structural lines that are left. -/
def structuralLines (lines : List SourceLine) (edits : List LineEdit) : List (Bytes × Bytes) :=
  (lines.zip edits).filterMap fun row =>
    match row.1.kind, row.2 with
    | .structural, .keep => some (row.1.text, row.1.eol)
    | _, _ => none

/-- Where a text is replaced, it stands nowhere else in the row. -/
def UniqueOccurrences (edits : List LineEdit) : Prop :=
  ∀ replacement before after, .replace replacement before after ∈ edits →
    ∀ position, OccursAt replacement.old (before ++ (replacement.old ++ after)) position →
      position = before.length

/-! ## Claims -/

def Claims.hides (claims : Claims) (index : Nat) : Bool := claims.hidden.getD index false

def Claims.ownerOf (claims : Claims) (index : Nat) : Option Owner :=
  claims.ownership.getD index none

/-- The vectors have an entry for each line. -/
structure Claims.Fits (claims : Claims) (count : Nat) : Prop where
  hidden : claims.hidden.length = count
  ownership : claims.ownership.length = count

variable {i : Nat}

theorem getD_set {α : Type} (xs : List α) (inside : i < xs.length) (value other : α) (j : Nat) :
    (xs.set i value).getD j other = if j = i then value else xs.getD j other := by
  rw [getD_eq_getElem?_getD, getElem?_set, getD_eq_getElem?_getD]
  by_cases same : j = i
  · rw [if_pos same.symm, if_pos same, if_pos inside]
    rfl
  · rw [if_neg (Ne.symm same), if_neg same]

variable {range : LineRange} {number : Nat}

theorem LineRange.mem_numbers :
    number ∈ range.numbers ↔ range.startLine ≤ number ∧ number ≤ range.endLine := by
  rw [LineRange.numbers, mem_range'_1]
  omega

variable {kind : Owner} {index : Nat} {allow : Bool} {claims next : Claims}

/-- What a claim of a line does. -/
theorem claimLine_ok (claimed : claimLine kind index allow claims number = .ok next) :
    (allow = true ∧ claims.ownerOf (number - 1) = some .automatic ∧ next = claims) ∨
    (claims.ownerOf (number - 1) = none ∧ next = ⟨claims.hidden.set (number - 1) true,
      claims.ownership.set (number - 1) (some kind)⟩) := by
  unfold claimLine at claimed
  rw [← Claims.ownerOf] at claimed
  cases owned : claims.ownerOf (number - 1) with
  | none =>
    rw [owned] at claimed
    cases claimed
    exact .inr ⟨rfl, rfl⟩
  | some owner =>
    rw [owned] at claimed
    obtain ⟨skipped, claimed⟩ := when_ok claimed
    cases claimed
    obtain ⟨allowed, automatic⟩ := Bool.and_eq_true_iff.mp skipped
    exact .inl ⟨allowed, congrArg some (eq_of_beq automatic), rfl⟩

/-- What a claim of a range leaves: claims only grow, and only in the range. -/
structure Grows (before after : Claims) (count : Nat) (within : Nat → Prop) : Prop where
  fits : after.Fits count
  hidden : ∀ index, before.hides index = true → after.hides index = true
  owned : ∀ index owner, before.ownerOf index = some owner → after.ownerOf index = some owner
  only : ∀ index, after.hides index = true → before.hides index = true ∨ within index

variable {count : Nat}

theorem claimLine_grows (fits : claims.Fits count) (inside : number - 1 < count)
    (claimed : claimLine kind index allow claims number = .ok next) :
    Grows claims next count (· = number - 1) := by
  rcases claimLine_ok claimed with ⟨-, -, rfl⟩ | ⟨free, rfl⟩
  · exact ⟨fits, fun _ => id, fun _ _ => id, fun _ => .inl⟩
  · have hides := getD_set claims.hidden (fits.hidden.symm ▸ inside) true false
    have owners := getD_set claims.ownership (fits.ownership.symm ▸ inside) (some kind) none
    refine ⟨⟨?_, ?_⟩, fun i already => ?_, fun i owner already => ?_, fun i now => ?_⟩
    · rw [length_set, fits.hidden]
    · rw [length_set, fits.ownership]
    · rw [Claims.hides, hides]
      split
      · rfl
      · exact already
    · rw [Claims.ownerOf, owners]
      split
      next same =>
        rw [same, free] at already
        cases already
      next => exact already
    · rw [Claims.hides, hides] at now
      split at now
      next same => exact .inr same
      next => exact .inl now

theorem Grows.trans {first second third : Claims} {within : Nat → Prop}
    (one : Grows first second count within) (two : Grows second third count within) :
    Grows first third count within where
  fits := two.fits
  hidden i already := two.hidden i (one.hidden i already)
  owned i owner already := two.owned i owner (one.owned i owner already)
  only i now := (two.only i now).elim (one.only i) .inr

theorem Grows.mono {before after : Claims} {within within' : Nat → Prop}
    (grows : Grows before after count within) (wider : ∀ i, within i → within' i) :
    Grows before after count within' where
  fits := grows.fits
  hidden := grows.hidden
  owned := grows.owned
  only i now := (grows.only i now).imp_right (wider i)

theorem Grows.refl (fits : claims.Fits count) (within : Nat → Prop) :
    Grows claims claims count within :=
  ⟨fits, fun _ => id, fun _ _ => id, fun _ => .inl⟩

/-- The range lies in the diff. -/
def LineRange.Inside (range : LineRange) (count : Nat) : Prop :=
  0 < range.startLine ∧ range.startLine ≤ range.endLine ∧ range.endLine ≤ count

/-- A claim of a range.  Where nothing is passed over, it takes lines that nobody has, and then
has them. -/
theorem claimRange_ok (fits : claims.Fits count) (inside : range.Inside count)
    (claimed : claimRange kind index allow claims range = .ok next) :
    Grows claims next count range.Covers ∧ (allow = false → ∀ i, range.Covers i →
      claims.ownerOf i = none ∧ next.ownerOf i = some kind ∧ next.hides i = true) := by
  have taken := foldlM_ok claimed
    (fun done state => Grows claims state count range.Covers ∧ (allow = false →
      ∀ number ∈ done, claims.ownerOf (number - 1) = none ∧
        state.ownerOf (number - 1) = some kind ∧ state.hides (number - 1) = true))
    ⟨.refl fits _, nofun⟩ ?_
  · refine ⟨taken.1, fun all i covers => ?_⟩
    exact taken.2 all (i + 1) (LineRange.mem_numbers.mpr covers)
  · rintro done number state after member ⟨grows, sofar⟩ here
    obtain ⟨low, high⟩ := LineRange.mem_numbers.mp member
    obtain ⟨positive, -, bounded⟩ := inside
    have small : number - 1 < count := by omega
    have step := claimLine_grows grows.fits small here
    refine ⟨grows.trans (step.mono fun i same => ?_), fun all => forall_mem_append.mpr
      ⟨fun other earlier => ?_, forall_mem_singleton.mpr ?_⟩⟩
    · constructor <;> omega
    · obtain ⟨free, owned, hidden⟩ := sofar all other earlier
      exact ⟨free, step.owned _ _ owned, step.hidden _ hidden⟩
    · rcases claimLine_ok here with ⟨impossible, -⟩ | ⟨free, rfl⟩
      · exact absurd impossible (Bool.eq_false_iff.mp all)
      · refine ⟨?_, ?_, ?_⟩
        · cases before : claims.ownerOf (number - 1) with
          | none => rfl
          | some owner =>
            rw [grows.owned _ _ before] at free
            cases free
        · rw [Claims.ownerOf, getD_set _ (grows.fits.ownership.symm ▸ small), if_pos rfl]
        · rw [Claims.hides, getD_set _ (grows.fits.hidden.symm ▸ small), if_pos rfl]

/-! ## Removed and folded rows -/

/-- The line of an index is a row of a hunk. -/
def IsRow (lines : List SourceLine) (index : Nat) : Prop :=
  ∃ line, lines[index]? = some line ∧ line.kind = .hunkSource

theorem getElem?_lineAt {lines : List SourceLine} {index : Nat} (inside : index < lines.length) :
    lines[index]? = some (lineAt lines (index + 1)) := by
  rw [lineAt, Nat.add_sub_cancel, getD_eq_getElem?_getD, getElem?_eq_getElem inside]
  rfl

variable {lines : List SourceLine} {line : SourceLine}

theorem lineAt_of_getElem? (here : lines[index]? = some line) :
    lineAt lines (index + 1) = line := by
  rw [lineAt, Nat.add_sub_cancel, getD_eq_getElem?_getD, here]
  rfl

theorem validateRange_ok (valid : validateRange lines range kind index = .ok ()) :
    range.Inside lines.length ∧ ∀ i, range.Covers i → IsRow lines i := by
  obtain ⟨proper, valid⟩ := unless_ok valid
  have inside : range.Inside lines.length := by
    refine ⟨?_, ?_, ?_⟩ <;> omega
  refine ⟨inside, fun i covers => ?_⟩
  have checked := forM_ok valid (i + 1) (LineRange.mem_numbers.mpr covers)
  have small : i < lines.length := Nat.lt_of_lt_of_le covers.2 inside.2.2
  refine ⟨_, getElem?_lineAt small, ?_⟩
  by_contra other
  rw [if_pos other] at checked
  cases checked

theorem validateFold_ok (valid : validateFold lines range index = .ok ()) (covers : range.Covers i) :
    (lineAt lines (i + 1)).fileId = (lineAt lines range.startLine).fileId ∧
    (lineAt lines (i + 1)).hunkId = (lineAt lines range.startLine).hunkId ∧
    (lineAt lines (i + 1)).marker = (lineAt lines range.startLine).marker := by
  have checked := forM_ok valid (i + 1) (LineRange.mem_numbers.mpr covers)
  by_contra different
  rw [if_pos (by tauto)] at checked
  cases checked

theorem applyRemove_grows (fits : claims.Fits lines.length)
    (applied : applyRemove lines claims range index = .ok next) :
    Grows claims next lines.length (IsRow lines) := by
  obtain ⟨valid, _, applied⟩ := seq_ok₂ applied
  obtain ⟨inside, rows⟩ := validateRange_ok valid
  exact (claimRange_ok fits inside applied).1.mono rows

/-- What is known when some ranges have been folded. -/
structure Folded (lines : List SourceLine) (start : Claims) (done : List LineRange)
    (state : Claims × List (Nat × Bytes)) : Prop where
  grows : Grows start state.1 lines.length (IsRow lines)
  folds : ∀ range ∈ done, IsFold lines range
  taken : ∀ range ∈ done, ∀ i, range.Covers i →
    state.1.ownerOf i = some .fold ∧ state.1.hides i = true
  apart : ∀ range ∈ done, ∀ other ∈ done, ∀ i, range.Covers i → other.Covers i → range = other
  shown : ∀ range ∈ done, state.2.lookup (range.startLine - 1) =
    some (foldLine (lineAt lines range.startLine))
  only : ∀ i text, state.2.lookup i = some text → ∃ range ∈ done, range.startLine = i + 1

theorem IsFold.covers_start (isFold : IsFold lines range) (start : range.startLine = i + 1) :
    range.Covers i := by
  have several := isFold.several
  constructor <;> omega

theorem Folded.snoc {start : Claims} {done : List LineRange}
    {state next : Claims × List (Nat × Bytes)} (folded : Folded lines start done state)
    (applied : applyFold lines state range index = .ok next) :
    Folded lines start (done ++ [range]) next := by
  obtain ⟨valid, applied⟩ := seq_ok applied
  obtain ⟨several, applied⟩ := unless_ok applied
  obtain ⟨uniform, _, applied⟩ := seq_ok₂ applied
  obtain ⟨claims, claimed, applied⟩ := bind_ok applied
  cases applied
  obtain ⟨inside, rows⟩ := validateRange_ok valid
  obtain ⟨step, takes⟩ := claimRange_ok folded.grows.fits inside claimed
  replace takes := takes rfl
  obtain ⟨positive, ordered, bounded⟩ := inside
  have isFold : IsFold lines range := by
    refine ⟨positive, by omega, bounded, fun i covers => ?_⟩
    obtain ⟨line, here, row⟩ := rows i covers
    have same := validateFold_ok uniform covers
    rw [lineAt_of_getElem? here] at same
    exact ⟨line, here, row, same⟩
  -- The lines of the new range belonged to nobody, those of an earlier one to a fold.
  have apart : ∀ other ∈ done, ∀ i, other.Covers i → ¬ range.Covers i := by
    intro other earlier i covers again
    have owned := (folded.taken other earlier i covers).1
    rw [(takes i again).1] at owned
    cases owned
  refine ⟨folded.grows.trans (step.mono rows), ?_, ?_, ?_, ?_, ?_⟩
  · exact forall_mem_append.mpr ⟨folded.folds, forall_mem_singleton.mpr isFold⟩
  · refine forall_mem_append.mpr ⟨fun other earlier i covers => ?_,
      forall_mem_singleton.mpr fun i covers => (takes i covers).2⟩
    obtain ⟨owned, hidden⟩ := folded.taken other earlier i covers
    exact ⟨step.owned i _ owned, step.hidden i hidden⟩
  · simp only [forall_mem_append, forall_mem_singleton]
    refine ⟨fun one earlier => ⟨folded.apart one earlier, fun i covers again => ?_⟩,
      fun other earlier i again covers => ?_, fun _ _ _ => trivial⟩
    · exact absurd again (apart one earlier i covers)
    · exact absurd again (apart other earlier i covers)
  · simp only [forall_mem_append, forall_mem_singleton, lookup_cons, beq_self_eq_true, and_true]
    intro other earlier
    split
    next same =>
      have otherPositive := (folded.folds other earlier).first
      have equal : other.startLine - 1 = range.startLine - 1 := eq_of_beq same
      rw [show other.startLine = range.startLine by omega]
    next => exact folded.shown other earlier
  · intro i text entry
    rw [lookup_cons] at entry
    split at entry
    next here =>
      have same : i = range.startLine - 1 := eq_of_beq here
      exact ⟨range, mem_append_right done mem_cons_self, by omega⟩
    next =>
      obtain ⟨other, earlier, start⟩ := folded.only i text entry
      exact ⟨other, mem_append_left _ earlier, start⟩

/-! ## Replaced rows -/

/-- The row after a replacement that has been accepted. -/
def replacementText (lines : List SourceLine) (replacement : LineReplacement) : Bytes :=
  let line := lineAt lines replacement.line
  let body := (decodeUtf8 (sourceBody line)).getD []
  renderReplacement line body ((matchIndices replacement.old body).headD 0) replacement

/-- A replacement that has been accepted. -/
structure Replaceable (lines : List SourceLine) (hidden : List Bool)
    (replacement : LineReplacement) : Prop where
  positive : 0 < replacement.line
  inside : replacement.line ≤ lines.length
  row : (lineAt lines replacement.line).kind = .hunkSource
  visible : hidden.getD (replacement.line - 1) false = false
  nonempty : replacement.old ≠ []
  shorter : byteLength replacement.new < byteLength replacement.old
  projection : IsProjection replacement.new replacement.old
  matched : ∃ body position, decodeUtf8 (sourceBody (lineAt lines replacement.line)) = some body ∧
    matchIndices replacement.old body = [position]

theorem occurInOrder_of_projectsFrom {pieces : List Text} {old : Text}
    (projects : projectsFrom pieces old = true) : OccurInOrder pieces old := by
  induction pieces generalizing old with
  | nil => trivial
  | cons piece pieces ih =>
    rw [projectsFrom] at projects
    cases found : find piece old with
    | none =>
      rw [found] at projects
      cases projects
    | some relative =>
      rw [found] at projects
      exact ⟨_, _, (find_spec found).2.split, ih projects⟩

theorem validateProjection_ok {old new : Text} (valid : validateProjection old new index = .ok ()) :
    old ≠ [] ∧ byteLength new < byteLength old ∧ IsProjection new old := by
  obtain ⟨sizes, valid⟩ := unless_ok valid
  obtain ⟨someEllipsis, valid⟩ := unless_ok valid
  obtain ⟨projects, valid⟩ := when_ok valid
  simp only [Bool.or_eq_true, decide_eq_true_eq, List.isEmpty_iff, not_or, not_lt, not_le] at sizes
  refine ⟨sizes.1.1, sizes.2, splitPattern ellipsis (normalizeEllipses new), ?_, ?_, ?_⟩
  · cases found : find ellipsis (normalizeEllipses new) with
    | none => simp [found] at someEllipsis
    | some position => exact one_lt_length_splitPattern (by decide) found
  · exact (intercalate_splitPattern (by decide) _).symm
  · exact occurInOrder_of_projectsFrom projects

/-- What is known when some replacements have been accepted. -/
structure Replaced (lines : List SourceLine) (hidden : List Bool) (done : List LineReplacement)
    (result : List (Nat × Bytes)) : Prop where
  each : ∀ replacement ∈ done, Replaceable lines hidden replacement
  apart : ∀ one ∈ done, ∀ other ∈ done, one.line = other.line → one = other
  shown : ∀ replacement ∈ done,
    result.lookup (replacement.line - 1) = some (replacementText lines replacement)
  only : ∀ i text, result.lookup i = some text → ∃ replacement ∈ done, replacement.line = i + 1

variable {hidden : List Bool} {replacement : LineReplacement} {result next : List (Nat × Bytes)}

theorem validateReplacement_ok
    (valid : validateReplacement lines hidden result replacement index = .ok next) :
    Replaceable lines hidden replacement ∧ result.lookup (replacement.line - 1) = none ∧
      next = (replacement.line - 1, replacementText lines replacement) :: result := by
  unfold validateReplacement at valid
  obtain ⟨inside, valid⟩ := unless_ok valid
  obtain ⟨row, valid⟩ := unless_ok valid
  obtain ⟨visible, valid⟩ := unless_ok valid
  obtain ⟨first, valid⟩ := unless_ok valid
  obtain ⟨projection, valid⟩ := seq_ok valid
  obtain ⟨nonempty, shorter, isProjection⟩ := validateProjection_ok projection
  cases decoded : decodeUtf8 (sourceBody (lineAt lines replacement.line)) with
  | none =>
    rw [decoded] at valid
    cases valid
  | some body =>
    rw [decoded] at valid
    dsimp only at valid
    split at valid
    next position single =>
      obtain ⟨_, valid⟩ := unless_ok valid
      cases valid
      refine ⟨⟨by omega, by omega, not_not.mp row, Bool.eq_false_iff.mpr visible, nonempty, shorter,
        isProjection, body, position, decoded, single⟩, ?_, ?_⟩
      · exact Option.not_isSome_iff_eq_none.mp first
      · rw [replacementText, decoded, getD_some, single, headD_cons]
    next => cases valid

theorem Replaced.snoc {done : List LineReplacement} (replaced : Replaced lines hidden done result)
    (valid : validateReplacement lines hidden result replacement index = .ok next) :
    Replaced lines hidden (done ++ [replacement]) next := by
  obtain ⟨replaceable, free, rfl⟩ := validateReplacement_ok valid
  have positive := replaceable.positive
  -- No earlier replacement is for the same line, since that line has no entry yet.
  have apart : ∀ other ∈ done, other.line ≠ replacement.line := by
    intro other earlier same
    have entry := replaced.shown other earlier
    rw [same, free] at entry
    cases entry
  refine ⟨?_, ?_, ?_, ?_⟩
  · exact forall_mem_append.mpr ⟨replaced.each, forall_mem_singleton.mpr replaceable⟩
  · simp only [forall_mem_append, forall_mem_singleton]
    refine ⟨fun one earlier => ⟨replaced.apart one earlier, fun same => ?_⟩,
      fun other earlier same => ?_, fun _ => trivial⟩
    · exact absurd same (apart one earlier)
    · exact absurd same.symm (apart other earlier)
  · simp only [forall_mem_append, forall_mem_singleton, lookup_cons, beq_self_eq_true, and_true]
    intro other earlier
    have different : (other.line - 1 == replacement.line - 1) = false := by
      have otherPositive := (replaced.each other earlier).positive
      have unequal := apart other earlier
      rw [beq_eq_false_iff_ne]
      omega
    rw [different]
    exact replaced.shown other earlier
  · intro i text entry
    rw [lookup_cons] at entry
    split at entry
    next here =>
      have same : i = replacement.line - 1 := eq_of_beq here
      exact ⟨replacement, mem_append_right done mem_cons_self, by omega⟩
    next =>
      obtain ⟨other, earlier, line⟩ := replaced.only i text entry
      exact ⟨other, mem_append_left _ earlier, line⟩

/-! ## The passes together -/

theorem zip_eq_map_zipIdx {α β : Type} {xs : List α} {ys : List β} (same : ys.length = xs.length)
    (other : β) : xs.zip ys = xs.zipIdx.map fun row => (row.1, ys.getD row.2 other) := by
  apply ext_getElem?
  intro i
  rw [getElem?_map, getElem?_zipIdx, Nat.zero_add]
  by_cases inside : i < xs.length
  · have both : (xs.zip ys)[i]? = some (xs[i], ys[i]) :=
      getElem?_zip_eq_some.mpr ⟨getElem?_eq_getElem inside, getElem?_eq_getElem _⟩
    rw [both, getElem?_eq_getElem inside, map_some, map_some,
      getD_eq_getElem?_getD, getElem?_eq_getElem (same ▸ inside), getD_some]
  · rw [getElem?_eq_none (by rw [length_zip]; omega), getElem?_eq_none (by omega)]
    rfl

variable (same : hidden.length = lines.length)

include same

theorem hideOwnedFrom_length (previous : Bool) :
    (hideOwnedFrom previous lines hidden).length = lines.length := by
  induction lines generalizing hidden previous with
  | nil =>
    cases hidden
    · rfl
    · cases same
  | cons line lines ih =>
    cases hidden with
    | nil => cases same
    | cons here hidden =>
      rw [hideOwnedFrom, length_cons, length_cons, ih (Nat.succ.inj same)]

/-- A line stays hidden, and a marker follows the line before it. -/
theorem hideOwnedFrom_getD (previous : Bool) (here : lines[i]? = some line) :
    (hideOwnedFrom previous lines hidden).getD i false =
      (hidden.getD i false || (line.kind == .noNewline &&
        match i with
        | 0 => previous
        | before + 1 => (hideOwnedFrom previous lines hidden).getD before false)) := by
  induction lines generalizing hidden previous i with
  | nil => cases here
  | cons first lines ih =>
    cases hidden with
    | nil => cases same
    | cons entry hidden =>
      rw [hideOwnedFrom]
      cases i with
      | zero =>
        cases here
        rfl
      | succ i =>
        rw [getD_cons_succ, ih (Nat.succ.inj same) _ here]
        cases i <;> rfl

theorem length_hideImportOnlySections :
    (hideImportOnlySections lines hidden).length = lines.length := by
  simp [hideImportOnlySections, hideFiles, hideHunks, same]

omit same

theorem length_setEntries (entries hidden : List Bool) :
    (setEntries entries hidden).length = hidden.length := by
  induction hidden generalizing entries with
  | nil => cases entries <;> rfl
  | cons first hidden ih =>
    cases entries with
    | nil => rfl
    | cons entry entries => rw [setEntries, length_cons, length_cons, ih]

theorem length_importRows (lines : List SourceLine) : (importRows lines).length = lines.length := by
  induction lines with
  | nil => rfl
  | cons line rest ih => rw [importRows, length_setEntries, length_cons, ih, length_cons]

theorem length_normalizeAutomaticMoveMask (lines : List SourceLine) :
    (normalizeAutomaticMoveMask lines (mandatoryImportMask lines)).length = lines.length := by
  have imports : (mandatoryImportMask lines).length = lines.length :=
    length_hideImportOnlySections (length_importRows lines)
  rw [normalizeAutomaticMoveMask, length_map, length_zip, imports, Nat.min_self]

theorem length_automaticMask (lines : List SourceLine) :
    (automaticMask lines).length = lines.length :=
  length_hideImportOnlySections (length_normalizeAutomaticMoveMask lines)

/-- What the passes of the compiler have found out about a plan. -/
structure Passed (lines : List SourceLine) (plan : Plan) (claims : Claims)
    (folded replacements : List (Nat × Bytes)) : Prop where
  folds : Folded lines (.start (automaticMask lines)) plan.fold (claims, folded)
  replaced : Replaced lines claims.hidden plan.replace replacements

theorem Claims.fits_start (lines : List SourceLine) :
    (Claims.start (automaticMask lines)).Fits lines.length where
  hidden := length_automaticMask lines
  ownership := by rw [Claims.start, length_map, length_automaticMask]

/-- The lines that the rendering leaves out. -/
abbrev Claims.mask (claims : Claims) (lines : List SourceLine) : List Bool :=
  hideOwnedNoNewlineMarkers lines claims.hidden

variable {plan : Plan} {result : CompileResult}

/-- The result of the compiler, with what it has checked. -/
theorem compilePlanned_ok {raw sourceDiff : Bytes}
    (ok : compilePlanned raw sourceDiff plan = .ok result) :
    ∃ lines claims folded replacements, parse raw = .ok lines ∧
      Passed lines plan claims folded replacements ∧
      validateMoveSymmetry lines claims.hidden = .ok () ∧
      validateCrossChunkMoveRetention sourceDiff lines claims.hidden
        ((List.range lines.length).map fun index => (replacements.lookup index).isSome) = .ok () ∧
      result = render lines folded (claims.mask lines) replacements
        plan.summary := by
  obtain ⟨lines, parsed, ok⟩ := bind_ok ok
  split at ok
  · cases ok
  obtain ⟨removed, removes, ok⟩ := bind_ok ok
  obtain ⟨⟨claims, folded⟩, folds, ok⟩ := bind_ok ok
  obtain ⟨replacements, replaces, ok⟩ := bind_ok ok
  obtain ⟨symmetric, retained, ok⟩ := seq_ok₂ ok
  cases ok
  have start := Claims.fits_start lines
  have afterRemoves := foldlM_ok removes
    (fun _ state => Grows (.start (automaticMask lines)) state lines.length (IsRow lines))
    (.refl start _)
    fun _ _ _ _ _ grows applied => grows.trans (applyRemove_grows grows.fits applied)
  have afterFolds := foldlM_ok folds
    (fun done state => Folded lines (.start (automaticMask lines)) (done.map Prod.fst) state)
    ⟨afterRemoves, nofun, nofun, nofun, nofun, nofun⟩
    (fun done entry state next _ sofar applied => by
      rw [map_append]
      exact sofar.snoc applied)
  have afterReplaces := foldlM_ok replaces
    (fun done state => Replaced lines claims.hidden (done.map Prod.fst) state)
    ⟨nofun, nofun, nofun, nofun⟩
    (fun done entry state next _ sofar applied => by
      rw [map_append]
      exact sofar.snoc applied)
  rw [zipIdx_map_fst] at afterFolds afterReplaces
  exact ⟨lines, claims, folded, replacements, parsed, ⟨afterFolds, afterReplaces⟩, symmetric,
    retained, rfl⟩

/-! ## The edits of a plan -/

/-- The edit of a line, from what is hidden in the end. -/
def editOf (lines : List SourceLine) (plan : Plan) (hidden : List Bool) (index : Nat) : LineEdit :=
  match plan.fold.find? fun range => range.startLine == index + 1 with
  | some range => .fold range
  | none =>
    if hidden.getD index false then .drop
    else
      match plan.replace.find? fun replacement => replacement.line == index + 1 with
      | some replacement =>
        let body := (decodeUtf8 (sourceBody (lineAt lines (index + 1)))).getD []
        let position := (matchIndices replacement.old body).headD 0
        .replace replacement (body.take position) (body.drop (position + replacement.old.length))
      | none => .keep

/-- The edits of all lines. -/
def editsOf (lines : List SourceLine) (plan : Plan) (hidden : List Bool) : List LineEdit :=
  (List.range lines.length).map (editOf lines plan hidden)

theorem getElem?_editsOf (inside : i < lines.length) :
    (editsOf lines plan hidden)[i]? = some (editOf lines plan hidden i) := by
  rw [editsOf, getElem?_map, List.getElem?_range inside]
  rfl

section NoStart

variable (noStart : ∀ range ∈ plan.fold, range.startLine ≠ i + 1)
include noStart

theorem find?_start : (plan.fold.find? fun range => range.startLine == i + 1) = none :=
  find?_eq_none.mpr fun range member start => noStart range member (eq_of_beq start)

/-- Where no range starts, hidden lines are dropped. -/
theorem editOf_hidden (here : hidden.getD i false = true) : editOf lines plan hidden i = .drop := by
  rw [editOf, find?_start noStart, if_pos here]

/-- A line that is neither hidden nor replaced is kept. -/
theorem editOf_keep (shown : hidden.getD i false = false)
    (unreplaced : ∀ other ∈ plan.replace, other.line ≠ i + 1) :
    editOf lines plan hidden i = .keep := by
  have noReplace : (plan.replace.find? fun other => other.line == i + 1) = none :=
    find?_eq_none.mpr fun other member number => unreplaced other member (eq_of_beq number)
  rw [editOf, find?_start noStart, shown, noReplace]
  rfl

end NoStart

theorem zipIdx_map_zipIdx {α β : Type} (xs : List α) (f : α × Nat → β) :
    (xs.zipIdx.map f).zipIdx = xs.zipIdx.map fun row => (f row, row.2) := by
  apply ext_getElem?
  intro i
  rw [getElem?_zipIdx, getElem?_map, getElem?_map, getElem?_zipIdx]
  cases xs[i]? with
  | none => rfl
  | some x =>
    rw [map_some, map_some, map_some, map_some]

theorem zip_editsOf (hidden : List Bool) :
    lines.zip (editsOf lines plan hidden) =
      lines.zipIdx.map fun row => (row.1, editOf lines plan hidden row.2) := by
  rw [zip_eq_map_zipIdx (by rw [editsOf, length_map, List.length_range]) .keep]
  refine List.map_congr_left fun row member => ?_
  have inside := (List.getElem?_eq_some_iff.mp (List.mem_zipIdx_iff_getElem?.mp member)).1
  rw [getD_eq_getElem?_getD, getElem?_editsOf inside]
  rfl

section Edits

variable {lines : List SourceLine} {plan : Plan} {claims : Claims}
  {folded replacements : List (Nat × Bytes)}
  (passed : Passed lines plan claims folded replacements)
include passed

variable {i : Nat}

theorem Passed.hides_cases (hidden : claims.hides i = true) :
    (automaticMask lines).getD i false = true ∨ IsRow lines i :=
  passed.folds.grows.only i hidden

theorem Passed.length_hidden : (claims.mask lines).length = lines.length :=
  hideOwnedFrom_length passed.folds.grows.fits.hidden false

/-- What is hidden stays hidden. -/
theorem Passed.hidden_of_hides (inside : i < lines.length) (hides : claims.hides i = true) :
    (claims.mask lines).getD i false = true := by
  rw [Claims.mask, hideOwnedNoNewlineMarkers,
    hideOwnedFrom_getD passed.folds.grows.fits.hidden false (getElem?_lineAt inside)]
  rw [Claims.hides] at hides
  rw [hides, Bool.true_or]

variable {line : SourceLine}

/-- Only markers behind hidden lines are added. -/
theorem Passed.hidden_cases (here : lines[i]? = some line)
    (hidden : (claims.mask lines).getD i false = true) :
    claims.hides i = true ∨ (line.kind = .noNewline ∧ ∃ previous, i = previous + 1 ∧
      (claims.mask lines).getD previous false = true) := by
  rw [Claims.mask, hideOwnedNoNewlineMarkers,
    hideOwnedFrom_getD passed.folds.grows.fits.hidden false here] at hidden
  rcases Bool.or_eq_true_iff.mp hidden with already | owned
  · exact .inl already
  · obtain ⟨kind, before⟩ := Bool.and_eq_true_iff.mp owned
    cases i with
    | zero => cases before
    | succ previous => exact .inr ⟨eq_of_beq kind, previous, rfl, before⟩

variable {range : LineRange}

theorem Passed.inside_of_covers (member : range ∈ plan.fold) (covers : range.Covers i) :
    i < lines.length :=
  Nat.lt_of_lt_of_le covers.2 (passed.folds.folds range member).inside

/-- The first row of a range is folded. -/
theorem Passed.editOf_start (hidden : List Bool) (member : range ∈ plan.fold)
    (start : range.startLine = i + 1) : editOf lines plan hidden i = .fold range := by
  have covers := (passed.folds.folds range member).covers_start start
  rw [editOf]
  cases found : plan.fold.find? fun range => range.startLine == i + 1 with
  | none =>
    have none_ := find?_eq_none.mp found range member
    exact absurd (beq_iff_eq.mpr start) none_
  | some other =>
    have otherMember := mem_of_find?_eq_some found
    have starts := find?_some found
    have otherStart : other.startLine = i + 1 := eq_of_beq starts
    have otherCovers := (passed.folds.folds other otherMember).covers_start otherStart
    rw [passed.folds.apart other otherMember range member i otherCovers covers]

/-- The other rows of a range are dropped. -/
theorem Passed.editOf_covered (member : range ∈ plan.fold) (covers : range.Covers i)
    (later : range.startLine ≠ i + 1) :
    editOf lines plan (claims.mask lines) i = .drop := by
  refine editOf_hidden (fun other otherMember start => later ?_) ?_
  · have otherCovers := (passed.folds.folds other otherMember).covers_start start
    rw [passed.folds.apart range member other otherMember i covers otherCovers]
    exact start
  · exact passed.hidden_of_hides (passed.inside_of_covers member covers)
      (passed.folds.taken range member i covers).2

/-- A row that is replaced is not hidden. -/
theorem Passed.not_hidden_of_replace (member : replacement ∈ plan.replace) :
    claims.hides (replacement.line - 1) = false ∧
    (claims.mask lines).getD (replacement.line - 1) false = false := by
  have replaceable := passed.replaced.each replacement member
  have positive := replaceable.positive
  have inside := replaceable.inside
  refine ⟨replaceable.visible, Bool.eq_false_iff.mpr fun hidden => ?_⟩
  have number : replacement.line - 1 + 1 = replacement.line := by omega
  have here := @getElem?_lineAt lines (replacement.line - 1) (by omega)
  rw [number] at here
  rcases passed.hidden_cases here hidden with hides | ⟨kind, -⟩
  · rw [Claims.hides, replaceable.visible] at hides
    cases hides
  · rw [replaceable.row] at kind
    cases kind

/-- No range starts at a line that is not hidden. -/
theorem Passed.no_start (shown : claims.hides i = false) :
    ∀ range ∈ plan.fold, range.startLine ≠ i + 1 := by
  intro range member start
  have covers := (passed.folds.folds range member).covers_start start
  rw [(passed.folds.taken range member i covers).2] at shown
  cases shown

/-- A replacement of the plan is made. -/
theorem Passed.editOf_replace (member : replacement ∈ plan.replace) :
    ∃ body position, decodeUtf8 (sourceBody (lineAt lines replacement.line)) = some body ∧
      matchIndices replacement.old body = [position] ∧
      editOf lines plan (claims.mask lines) (replacement.line - 1) =
        .replace replacement (body.take position) (body.drop (position + replacement.old.length)) ∧
      replacements.lookup (replacement.line - 1) =
        some (renderReplacement (lineAt lines replacement.line) body position replacement) := by
  have replaceable := passed.replaced.each replacement member
  have positive := replaceable.positive
  obtain ⟨body, position, decoded, single⟩ := replaceable.matched
  obtain ⟨notHides, notHidden⟩ := passed.not_hidden_of_replace member
  have number : replacement.line - 1 + 1 = replacement.line := by omega
  have noStart := passed.no_start notHides
  refine ⟨body, position, decoded, single, ?_, ?_⟩
  · rw [editOf, find?_start noStart, notHidden, number]
    cases found : plan.replace.find? fun other => other.line == replacement.line with
    | none =>
      have none_ := find?_eq_none.mp found replacement member
      exact absurd (beq_self_eq_true _) none_
    | some other =>
      have sameLine := find?_some found
      have same : other = replacement :=
        passed.replaced.apart other (mem_of_find?_eq_some found) replacement member
          (eq_of_beq sameLine)
      rw [same, decoded, getD_some]
      simp only [Bool.false_eq_true, if_false, single, headD_cons]
  · rw [passed.replaced.shown replacement member, replacementText, decoded, getD_some, single,
      headD_cons]

/-- The rows that are left are those of the edits. -/
theorem Passed.renderLine_eq (here : lines[i]? = some line) (isParsed : line.Parsed) :
    renderLine line (folded.lookup i) ((claims.mask lines).getD i false) (replacements.lookup i) =
      (editOf lines plan (claims.mask lines) i).render line := by
  have atLine := lineAt_of_getElem? here
  by_cases starts : ∃ range ∈ plan.fold, range.startLine = i + 1
  · obtain ⟨range, member, start⟩ := starts
    have isFold := passed.folds.folds range member
    obtain ⟨row, rowHere, kind, -⟩ := isFold.rows i (isFold.covers_start start)
    obtain rfl : row = line := Option.mem_unique rowHere here
    obtain ⟨marker, rest, marked, text⟩ := isParsed.row kind
    have shown : folded.lookup i = some (foldLine row) := by
      have entry := passed.folds.shown range member
      rw [start, atLine] at entry
      exact entry
    rw [passed.editOf_start _ member start, shown, renderLine, LineEdit.render, foldLine, marked,
      text, getD_some, take_succ_cons, take_zero]
    simp only [cons_append, nil_append, append_assoc]
  · have noStart : ∀ range ∈ plan.fold, range.startLine ≠ i + 1 :=
      fun range member start => starts ⟨range, member, start⟩
    have notShown : folded.lookup i = none := by
      cases entry : folded.lookup i with
      | none => rfl
      | some text => exact absurd (passed.folds.only i text entry) starts
    cases hidden : (claims.mask lines).getD i false with
    | true =>
      rw [editOf_hidden noStart hidden, notShown]
      rfl
    | false =>
      by_cases replaces : ∃ replacement ∈ plan.replace, replacement.line = i + 1
      · obtain ⟨replacement, member, number⟩ := replaces
        obtain ⟨body, position, decoded, single, edit, entry⟩ := passed.editOf_replace member
        have row := (passed.replaced.each replacement member).row
        rw [number, Nat.add_sub_cancel] at edit entry
        rw [atLine] at entry
        rw [number, atLine] at row
        obtain ⟨marker, rest, marked, text⟩ := isParsed.row row
        rw [edit, entry, notShown, renderLine, LineEdit.render, renderReplacement, marked, text, take_succ_cons, take_zero, encodeUtf8_append, encodeUtf8_append]
        simp only [Bool.false_eq_true, if_false, getD_some, cons_append, nil_append, append_assoc]
      · have noEntry : replacements.lookup i = none := by
          cases entry : replacements.lookup i with
          | none => rfl
          | some text => exact absurd (passed.replaced.only i text entry) replaces
        rw [editOf_keep noStart hidden fun other member number => replaces ⟨other, member, number⟩,
          notShown, noEntry]
        rfl

/-- Every edit of a plan that has passed has its reason. -/
theorem Passed.justified (here : lines[i]? = some line) :
    Justified lines plan (editsOf lines plan (claims.mask lines)) i line
      (editOf lines plan (claims.mask lines) i) := by
  by_cases starts : ∃ range ∈ plan.fold, range.startLine = i + 1
  · obtain ⟨range, member, start⟩ := starts
    rw [passed.editOf_start _ member start]
    refine .fold member start (passed.folds.folds range member) fun later covers different => ?_
    rw [getElem?_editsOf (passed.inside_of_covers member covers),
      passed.editOf_covered member covers (by omega)]
  · have noStart : ∀ range ∈ plan.fold, range.startLine ≠ i + 1 :=
      fun range member start => starts ⟨range, member, start⟩
    cases hidden : (claims.mask lines).getD i false with
    | true =>
      rw [editOf_hidden noStart hidden]
      rcases passed.hidden_cases here hidden with hides | ⟨kind, previous, rfl, before⟩
      · rcases passed.hides_cases hides with automatic | ⟨row, rowHere, kind⟩
        · refine .automatic ?_
          rw [getD_eq_getElem?_getD] at automatic
          cases entry : (automaticMask lines)[i]? with
          | none =>
            rw [entry] at automatic
            cases automatic
          | some value =>
            rw [entry] at automatic
            exact congrArg some automatic
        · obtain rfl : row = line := Option.mem_unique rowHere here
          exact .row kind
      · have inside : previous < lines.length := by
          have bound := (List.getElem?_eq_some_iff.mp here).1
          omega
        refine .noNewline kind rfl ?_
        rw [getElem?_editsOf inside, editOf_hidden (fun range member start => ?_) before]
        -- A range that starts at the line before would have the marker as a row.
        have isFold := passed.folds.folds range member
        have several := isFold.several
        obtain ⟨row, rowHere, rowKind, -⟩ := isFold.rows (previous + 1) (by constructor <;> omega)
        obtain rfl : row = line := Option.mem_unique rowHere here
        rw [rowKind] at kind
        cases kind
    | false =>
      by_cases replaces : ∃ replacement ∈ plan.replace, replacement.line = i + 1
      · obtain ⟨replacement, member, number⟩ := replaces
        have replaceable := passed.replaced.each replacement member
        obtain ⟨body, position, decoded, single, edit, -⟩ := passed.editOf_replace member
        have row := replaceable.row
        have occurs := (matchIndices_single replaceable.nonempty single).1
        rw [number, Nat.add_sub_cancel] at edit
        rw [number, lineAt_of_getElem? here] at row decoded
        rw [edit]
        exact .replace member number row (occurs.split ▸ decoded) replaceable.shorter
          replaceable.projection
      · rw [editOf_keep noStart hidden fun other member number => replaces ⟨other, member, number⟩]
        exact .keep

/-- The edits give the reading diff. -/
theorem Passed.projects (parsed : ∀ line ∈ lines, line.Parsed) :
    Projects lines plan
      (render lines folded (claims.mask lines) replacements plan.summary).readingDiff
      (editsOf lines plan (claims.mask lines)) where
  each := by rw [editsOf, length_map, List.length_range]
  output := by
    have edits : lines.zip (editsOf lines plan (claims.mask lines)) =
        lines.zipIdx.map fun row =>
          (row.1, editOf lines plan (claims.mask lines) row.2) :=
      zip_editsOf _
    have rows : (lines.zip (claims.mask lines)).zipIdx =
        lines.zipIdx.map fun row =>
          ((row.1, (claims.mask lines).getD row.2 false), row.2) := by
      rw [zip_eq_map_zipIdx passed.length_hidden false, zipIdx_map_zipIdx]
    rw [render, rows, edits, flatMap_map, flatMap_map]
    refine flatMap_congr fun row member => ?_
    have here := List.mem_zipIdx_iff_getElem?.mp member
    exact passed.renderLine_eq here (parsed row.1 (mem_of_getElem? here))
  justified index line edit here edited := by
    have inside := (List.getElem?_eq_some_iff.mp here).1
    rw [getElem?_editsOf inside] at edited
    cases edited
    exact passed.justified here
  replaced replacement member := by
    have replaceable := passed.replaced.each replacement member
    have positive := replaceable.positive
    have bounded := replaceable.inside
    obtain ⟨body, position, -, -, edit, -⟩ := passed.editOf_replace member
    refine ⟨body.take position, body.drop (position + replacement.old.length), ?_⟩
    rw [getElem?_editsOf (by omega), edit]

/-- A line that is neither hidden by a pass nor replaced is kept. -/
theorem Passed.editOf_shown (here : lines[i]? = some line) (kind : line.kind ≠ .noNewline)
    (shown : claims.hides i = false) (unreplaced : ∀ other ∈ plan.replace, other.line ≠ i + 1) :
    editOf lines plan (claims.mask lines) i = .keep := by
  refine editOf_keep (passed.no_start shown) (Bool.eq_false_iff.mpr fun hidden => ?_) unreplaced
  rcases passed.hidden_cases here hidden with hides | ⟨marker, -⟩
  · rw [shown] at hides
    cases hides
  · exact kind marker

/-- A line that a pass hides is dropped, or an ellipsis stands in its place. -/
theorem Passed.editOf_hides (inside : i < lines.length) (hides : claims.hides i = true) :
    editOf lines plan (claims.mask lines) i = .drop ∨
      ∃ range, editOf lines plan (claims.mask lines) i = .fold range := by
  by_cases starts : ∃ range ∈ plan.fold, range.startLine = i + 1
  · obtain ⟨range, member, start⟩ := starts
    exact .inr ⟨range, passed.editOf_start _ member start⟩
  · exact .inl (editOf_hidden (fun range member start => starts ⟨range, member, start⟩)
      (passed.hidden_of_hides inside hides))

/-- A structural line is left unless the automatic mask has it. -/
theorem Passed.editOf_structural (here : lines[i]? = some line) (kind : line.kind = .structural) :
    editOf lines plan (claims.mask lines) i =
      if (automaticMask lines).getD i false then .drop else .keep := by
  have inside := (List.getElem?_eq_some_iff.mp here).1
  have noRow : ¬ IsRow lines i := by
    rintro ⟨row, rowHere, rowKind⟩
    obtain rfl : row = line := Option.mem_unique rowHere here
    rw [kind] at rowKind
    cases rowKind
  have noStart : ∀ range ∈ plan.fold, range.startLine ≠ i + 1 := by
    intro range member start
    have isFold := passed.folds.folds range member
    obtain ⟨row, rowHere, rowKind, -⟩ := isFold.rows i (isFold.covers_start start)
    exact noRow ⟨row, rowHere, rowKind⟩
  split
  next automatic =>
    exact editOf_hidden noStart
      (passed.hidden_of_hides inside (passed.folds.grows.hidden i automatic))
  next visible =>
    have shown : claims.hides i = false :=
      Bool.eq_false_iff.mpr fun hides => (passed.hides_cases hides).elim visible noRow
    refine passed.editOf_shown here (by simp [kind]) shown fun other member number =>
      noRow ⟨line, here, ?_⟩
    have row := (passed.replaced.each other member).row
    rwa [number, lineAt_of_getElem? here] at row

/-- **Which structural lines are left does not depend on the plan.** -/
theorem Passed.structuralLines_eq :
    structuralLines lines (editsOf lines plan (claims.mask lines)) =
      lines.zipIdx.filterMap fun row =>
        if row.1.kind = .structural ∧ (automaticMask lines).getD row.2 false = false then
          some (row.1.text, row.1.eol)
        else none := by
  rw [structuralLines, zip_editsOf, filterMap_map]
  refine filterMap_congr fun row member => ?_
  have here := List.mem_zipIdx_iff_getElem?.mp member
  cases kind : row.1.kind with
  | structural =>
    simp only [Function.comp_apply, kind, passed.editOf_structural here kind]
    cases (automaticMask lines).getD row.2 false <;> rfl
  | hunkSource => simp [kind]
  | noNewline => simp [kind]

end Edits

/-! ## What an accepted plan does -/

/-- A plan that is accepted is a projection, by edits that leave the structural lines alone. -/
theorem compile_projects {decode : Text → Except String Plan} {raw : Bytes} {planJson : Text}
    (read : Plan.parse decode planJson = .ok plan)
    (parsed : parse raw = .ok lines) (accepted : compile decode raw planJson = .ok result) :
    ∃ edits, Projects lines plan result.readingDiff edits ∧
      (∀ replacement ∈ plan.replace, ∃ hidden, Replaceable lines hidden replacement) ∧
      structuralLines lines edits = lines.zipIdx.filterMap fun row =>
        if row.1.kind = .structural ∧ (automaticMask lines).getD row.2 false = false then
          some (row.1.text, row.1.eol)
        else none := by
  rw [compile, compileWithSource, read] at accepted
  obtain ⟨lines', claims, folded, replacements, parsed', passed, -, -, rfl⟩ :=
    compilePlanned_ok accepted
  obtain rfl : lines' = lines := Except.ok.inj (parsed'.symm.trans parsed)
  exact ⟨_, passed.projects (parsed_of_parse parsed),
    fun replacement member => ⟨_, passed.replaced.each replacement member⟩,
    passed.structuralLines_eq⟩

/-- No text to be replaced stands at two places of its row that overlap. -/
def SeparateMatches (lines : List SourceLine) (plan : Plan) : Prop :=
  ∀ replacement ∈ plan.replace, ∀ body,
    decodeUtf8 (sourceBody (lineAt lines replacement.line)) = some body →
    NoOverlap replacement.old body

/-- A text that stands nowhere else does not overlap itself. -/
theorem Projects.separateMatches {readingDiff : Bytes} {edits : List LineEdit}
    (projects : Projects lines plan readingDiff edits) (unique : UniqueOccurrences edits) :
    SeparateMatches lines plan := by
  intro replacement member body decoded p q atP atQ before
  obtain ⟨left, right, edited⟩ := projects.replaced replacement member
  have inside : replacement.line - 1 < lines.length := by
    rw [← projects.each]
    exact (List.getElem?_eq_some_iff.mp edited).1
  have here := getElem?_lineAt inside
  cases projects.justified _ _ _ here edited with
  | replace _ number _ decoded' _ _ =>
    rw [← number, decoded] at decoded'
    obtain rfl := Option.some.inj decoded'
    have only := unique replacement left right (mem_of_getElem? edited)
    have sameP := only p atP
    have sameQ := only q atQ
    omega

theorem Projects.uniqueOccurrences {readingDiff : Bytes} {edits : List LineEdit}
    (projects : Projects lines plan readingDiff edits)
    (replaceable : ∀ replacement ∈ plan.replace, ∃ hidden, Replaceable lines hidden replacement)
    (separate : SeparateMatches lines plan) : UniqueOccurrences edits := by
  intro replacement before after member
  obtain ⟨i, edited⟩ := getElem?_of_mem member
  have inside : i < lines.length := by
    rw [← projects.each]
    exact (List.getElem?_eq_some_iff.mp edited).1
  have here := getElem?_lineAt inside
  cases projects.justified _ _ _ here edited with
  | replace inPlan number _ decoded _ _ =>
    rw [← number] at decoded
    obtain ⟨hidden, accepted⟩ := replaceable replacement inPlan
    obtain ⟨body, position, decoded', single⟩ := accepted.matched
    obtain rfl := Option.mem_unique decoded decoded'
    have only := (matchIndices_single_unique_iff accepted.nonempty single).mpr
      (separate replacement inPlan _ decoded)
    have own : OccursAt replacement.old (before ++ (replacement.old ++ after)) before.length := by
      rw [OccursAt, drop_left]
      exact prefix_append _ _
    intro q atQ
    rw [only q atQ, only before.length own]

/-- What a reading diff must be: the diff, projected as the plan says, with every text that
is replaced standing only there, and with the structural lines of every other reading diff. -/
def ReadsAsPlanned (decode : Text → Except String Plan) (raw : Bytes) (lines : List SourceLine)
    (plan : Plan) (readingDiff : Bytes) : Prop :=
  ∃ edits, Projects lines plan readingDiff edits ∧ UniqueOccurrences edits ∧
    ∀ planJson other result, Plan.parse decode planJson = .ok other →
      compile decode raw planJson = .ok result →
      ∃ edits', Projects lines other result.readingDiff edits' ∧
        structuralLines lines edits = structuralLines lines edits'

/-- **An accepted plan can only hide, fold and shorten rows.**  The one thing it can get
wrong is a text that overlaps itself: it may be replaced although it stands at another
place of the row too. -/
theorem compile_readsAsPlanned_iff {decode : Text → Except String Plan} {raw : Bytes}
    {planJson : Text} {plan : Plan} {lines : List SourceLine} {result : CompileResult}
    (read : Plan.parse decode planJson = .ok plan) (parsed : parse raw = .ok lines)
    (accepted : compile decode raw planJson = .ok result) :
    ReadsAsPlanned decode raw lines plan result.readingDiff ↔ SeparateMatches lines plan := by
  constructor
  · rintro ⟨edits, projects, unique, -⟩
    exact projects.separateMatches unique
  · intro separate
    obtain ⟨edits, projects, replaceable, structural⟩ := compile_projects read parsed accepted
    refine ⟨edits, projects, projects.uniqueOccurrences replaceable separate, ?_⟩
    intro planJson' other result' read' accepted'
    obtain ⟨edits', projects', -, structural'⟩ := compile_projects read' parsed accepted'
    exact ⟨edits', projects', structural.trans structural'.symm⟩

/-- A rule of seven signs is added to a text. -/
def sampleRaw : Bytes :=
  ascii "diff --git a/t b/t\n--- a/t\n+++ b/t\n@@ -0,0 +1,3 @@\n+=======\n+one\n+two\n"

def sampleLines : List SourceLine := (parse sampleRaw).toOption.getD []

/-- Shorten the rule by an ellipsis for so many signs, and fold the rows below. -/
def samplePlan (signs : Nat) : Plan :=
  ⟨1, [], [⟨5, List.replicate signs '=', ellipsis⟩], [⟨6, 7⟩], "Add a rule.".toList⟩

def sampleDecode (signs : Nat) : Text → Except String Plan := fun _ => .ok (samplePlan signs)

/-- The whole rule is replaced. -/
theorem compile_readsAsPlanned_iff_rule :
    ∃ result, compile (sampleDecode 7) sampleRaw [] = .ok result ∧
      (ReadsAsPlanned (sampleDecode 7) sampleRaw sampleLines (samplePlan 7) result.readingDiff ↔
        SeparateMatches sampleLines (samplePlan 7)) := by
  have parsed : parse sampleRaw = .ok sampleLines := by decide +kernel
  have accepts : (compile (sampleDecode 7) sampleRaw []).isOk = true := by decide +kernel
  cases accepted : compile (sampleDecode 7) sampleRaw [] with
  | error message =>
    rw [accepted] at accepts
    cases accepts
  | ok result =>
    have read : Plan.parse (sampleDecode 7) [] = .ok (samplePlan 7) := by rfl
    exact ⟨result, rfl, compile_readsAsPlanned_iff read parsed accepted⟩

/-- Four of the seven signs stand at four places, and the first is replaced. -/
theorem four_signs_not_readsAsPlanned :
    ∃ result, compile (sampleDecode 4) sampleRaw [] = .ok result ∧
      ¬ ReadsAsPlanned (sampleDecode 4) sampleRaw sampleLines (samplePlan 4) result.readingDiff := by
  have accepts : (compile (sampleDecode 4) sampleRaw []).isOk = true := by decide +kernel
  cases accepted : compile (sampleDecode 4) sampleRaw [] with
  | error message =>
    rw [accepted] at accepts
    cases accepts
  | ok result =>
    refine ⟨result, rfl, ?_⟩
    rintro ⟨edits, projects, unique, -⟩
    have decoded : decodeUtf8 (sourceBody (lineAt sampleLines 5)) =
        some (List.replicate 7 '=') := by decide +kernel
    have first : OccursAt (List.replicate 4 '=') (List.replicate 7 '=') 0 :=
      ⟨List.replicate 3 '=', rfl⟩
    have second : OccursAt (List.replicate 4 '=') (List.replicate 7 '=') 1 :=
      ⟨List.replicate 2 '=', rfl⟩
    have apart := projects.separateMatches unique _ mem_cons_self _ decoded 0 1 first second
      Nat.one_pos
    have close : ¬ 0 + (List.replicate 4 '=').length ≤ 1 := by decide
    exact close apart

/-! ## Exact moves -/

section Moves

variable {marker : UInt8} {body : Bytes}

/-- The one row of a side of a move. -/
theorem positionsOf_single {i : Nat} (only : positionsOf lines marker body = [i]) :
    (∃ line, lines[i]? = some line ∧ line.hasMove marker body = true) ∧
      (rowsOf lines marker body).length = 1 := by
  constructor
  · have listed : i ∈ positionsOf lines marker body := only ▸ mem_cons_self
    obtain ⟨inside, moves⟩ := mem_findIdxs_iff_exists_getElem_pos.mp listed
    exact ⟨lines[i], List.getElem?_eq_getElem inside, moves⟩
  · have counted := congrArg List.length only
    rwa [positionsOf, length_findIdxs, countP_eq_length_filter] at counted

/-- The ellipsis of a fold is too short to be taken for the row of a move. -/
theorem trimAscii_fold (body : Bytes) : trimAscii (indentation body ++ ascii "...") = ascii "..." := by
  have blank : ∀ byte ∈ indentation body, isAsciiWhitespace byte.toNat = true := by
    intro byte member
    have is := mem_takeWhile_imp member
    rcases Bool.or_eq_true_iff.mp is with space | tab
    · rw [eq_of_beq space]
      rfl
    · rw [eq_of_beq tab]
      rfl
  rw [trimAscii, dropWhile_append_of_pos blank]
  rfl

/-- The row stands in the output as it stands in the diff. -/
def Verbatim (lines : List SourceLine) (edits : List LineEdit) (i : Nat) : Prop :=
  ∃ line edit, lines[i]? = some line ∧ edits[i]? = some edit ∧ edit.render line = line.text ++ line.eol

/-- The row is not in the output, neither as it was nor with some of its text replaced. -/
def Elided (lines : List SourceLine) (edits : List LineEdit) (i : Nat) : Prop :=
  ¬ Verbatim lines edits i ∧ ∀ replacement before after,
    edits[i]? ≠ some (.replace replacement before after)

/-- A row of a move is not replaced. -/
theorem not_replaced_of_retained {raw : Bytes} {replaced : List Bool}
    (parsed : parse raw = .ok lines) (exactMove : isExactMove lines body = true)
    (sameHidden : hidden.length = lines.length) (sameReplaced : replaced.length = lines.length)
    (retained : validateCrossChunkMoveRetention raw lines hidden replaced = .ok ())
    (here : lines[i]? = some line) (changed : line.isChanged = true)
    (moves : trimAscii (sourceBody line) = body) : replaced.getD i false = false := by
  have inside := (List.getElem?_eq_some_iff.mp here).1
  have entry : ∀ {entries : List Bool}, entries.length = lines.length →
      entries[i]? = some (entries.getD i false) := by
    intro entries same
    rw [getD_eq_getElem?_getD, getElem?_eq_getElem (by omega)]
    rfl
  rw [validateCrossChunkMoveRetention, parsed] at retained
  have row : (lines.zip (hidden.zip replaced))[i]? =
      some (line, hidden.getD i false, replaced.getD i false) := getElem?_zip_eq_some.mpr
    ⟨here, getElem?_zip_eq_some.mpr ⟨entry sameHidden, entry sameReplaced⟩⟩
  have valid := forM_ok retained _ (mem_of_getElem? row)
  have sources : (lines.zip (normalizeAutomaticMoveMask lines (mandatoryImportMask lines))).map
      Prod.fst = lines := map_fst_zip (Nat.le_of_eq (length_normalizeAutomaticMoveMask lines).symm)
  cases replaces : replaced.getD i false with
  | false => rfl
  | true =>
    simp only [validateRetention, changed, sources, moves, exactMove, replaces, Bool.not_true,
      Bool.false_eq_true, if_false, if_true, reduceCtorEq] at valid

variable {raw : Bytes} {claims : Claims} {folded replacements : List (Nat × Bytes)}

/-- One row of a move: the passes decide whether it is in the output as it is or not at all. -/
theorem Passed.move_row (passed : Passed lines plan claims folded replacements)
    (parsed : parse raw = .ok lines) (exactMove : isExactMove lines body = true)
    (retained : validateCrossChunkMoveRetention raw lines claims.hidden
      ((List.range lines.length).map fun index => (replacements.lookup index).isSome) = .ok ())
    (here : lines[i]? = some line) (changed : line.isChanged = true)
    (moves : moveBody line = some body) :
    if claims.hides i then
      Elided lines (editsOf lines plan (claims.mask lines)) i
    else Verbatim lines (editsOf lines plan (claims.mask lines)) i := by
  have inside := (List.getElem?_eq_some_iff.mp here).1
  have isParsed := parsed_of_parse parsed line (mem_of_getElem? here)
  have kind : line.kind = .hunkSource := by
    by_contra other
    simp [SourceLine.isChanged, isParsed.other other] at changed
  obtain ⟨marker, rest, -, text⟩ := isParsed.row kind
  have long : trimAscii (sourceBody line) = body ∧ ¬ body.length < 12 := by
    rw [moveBody] at moves
    split at moves
    · cases moves
    · cases moves
      exact ⟨rfl, by assumption⟩
  have edited : (editsOf lines plan (claims.mask lines))[i]? = _ :=
    getElem?_editsOf inside
  split
  next hides =>
    have gone := passed.editOf_hides inside hides
    refine ⟨?_, fun replacement before after is => ?_⟩
    · rintro ⟨row, edit, rowHere, editHere, same⟩
      obtain rfl := Option.mem_unique rowHere here
      obtain rfl := Option.mem_unique editHere edited
      rcases gone with drop | ⟨range, fold⟩
      · rw [drop, text] at same
        cases same
      · -- What stands there instead is three dots behind the blanks of the row.
        rw [fold, LineEdit.render, text] at same
        have dots : indentation (sourceBody row) ++ ascii "..." = rest :=
          (cons.inj (append_cancel_right same)).2
        have body' : sourceBody row = rest := by rw [sourceBody, text, drop_one, tail_cons]
        rw [body', ← dots, trimAscii_fold] at long
        exact long.2 (long.1 ▸ by decide)
    · rw [edited] at is
      rcases gone with drop | ⟨range, fold⟩
      · rw [drop] at is
        cases is
      · rw [fold] at is
        cases is
  next shown =>
    have shown := Bool.eq_false_iff.mpr shown
    refine ⟨line, _, here, edited, ?_⟩
    rw [passed.editOf_shown here (by simp [kind]) shown fun other member number => ?_]
    · rfl
    · have entry := passed.replaced.shown other member
      rw [number, Nat.add_sub_cancel] at entry
      have unreplaced := not_replaced_of_retained parsed exactMove passed.folds.grows.fits.hidden
        (by simp) retained here changed long.1
      rw [getD_eq_getElem?_getD, getElem?_map, List.getElem?_range inside, map_some, entry] at unreplaced
      cases unreplaced

end Moves

/-- **An exact move is shown whole or not at all.**  Where a body long enough is on one removed
row and on one added row, both rows are in the reading diff as they are, or neither is, nor any
replacement of it. -/
theorem exact_move_whole_or_elided {decode : Text → Except String Plan} {raw : Bytes}
    {planJson : Text} {plan : Plan} {lines : List SourceLine} {result : CompileResult}
    (read : Plan.parse decode planJson = .ok plan) (parsed : parse raw = .ok lines)
    (accepted : compile decode raw planJson = .ok result) :
    ∃ edits, Projects lines plan result.readingDiff edits ∧ ∀ body old new,
      positionsOf lines '-'.toUInt8 body = [old] → positionsOf lines '+'.toUInt8 body = [new] →
        Verbatim lines edits old ∧ Verbatim lines edits new ∨
          Elided lines edits old ∧ Elided lines edits new := by
  rw [compile, compileWithSource, read] at accepted
  obtain ⟨lines', claims, folded, replacements, parsed', passed, symmetric, retained, rfl⟩ :=
    compilePlanned_ok accepted
  obtain rfl : lines' = lines := Except.ok.inj (parsed'.symm.trans parsed)
  refine ⟨_, passed.projects (parsed_of_parse parsed), fun body old new removed added => ?_⟩
  obtain ⟨⟨oldLine, oldHere, oldMoves⟩, oldOnce⟩ := positionsOf_single removed
  obtain ⟨⟨newLine, newHere, newMoves⟩, newOnce⟩ := positionsOf_single added
  obtain ⟨oldMarker, oldBody⟩ := Bool.and_eq_true_iff.mp oldMoves
  obtain ⟨newMarker, newBody⟩ := Bool.and_eq_true_iff.mp newMoves
  have exactMove : isExactMove lines' body = true := by simp [isExactMove, oldOnce, newOnce]
  have oldRow := passed.move_row parsed exactMove retained oldHere
    (by simp [SourceLine.isChanged, eq_of_beq oldMarker]) (eq_of_beq oldBody)
  have newRow := passed.move_row parsed exactMove retained newHere
    (by simp [SourceLine.isChanged, eq_of_beq newMarker]) (eq_of_beq newBody)
  have together : claims.hides old = claims.hides new := by
    have listed : body ∈ removedBodies lines' := mem_filterMap.mpr
      ⟨oldLine, mem_of_getElem? oldHere, by rw [if_pos oldMarker, eq_of_beq oldBody]⟩
    have valid := forM_ok symmetric body listed
    rw [removed, added] at valid
    dsimp only at valid
    split at valid
    · cases valid
    next same => exact not_not.mp fun different => same (bne_iff_ne.mpr different)
  rw [together] at oldRow
  cases hides : claims.hides new with
  | true =>
    rw [hides] at oldRow newRow
    exact .inr ⟨oldRow, newRow⟩
  | false =>
    rw [hides] at oldRow newRow
    exact .inl ⟨oldRow, newRow⟩

/-- A row is moved behind another. -/
def movedRaw : Bytes :=
  ascii ("diff --git a/t b/t\n--- a/t\n+++ b/t\n@@ -1,2 +1,2 @@\n" ++
    "-let moved = 1;\n kept\n+let moved = 1;\n")

/-- Leave the move out. -/
def movedPlan : Plan := ⟨1, [⟨5, 5⟩, ⟨7, 7⟩], [], [], "Move a row.".toList⟩

theorem exact_move_whole_or_elided_removed : ∃ lines result edits,
    compile (fun _ => .ok movedPlan) movedRaw [] = .ok result ∧
      Projects lines movedPlan result.readingDiff edits ∧
      (Verbatim lines edits 4 ∧ Verbatim lines edits 6 ∨ Elided lines edits 4 ∧ Elided lines edits 6) := by
  have parses : (parse movedRaw).isOk = true := by decide +kernel
  have accepts : (compile (fun _ => .ok movedPlan) movedRaw []).isOk = true := by decide +kernel
  cases parsed : parse movedRaw with
  | error message => simp [parsed, Except.isOk, Except.toBool] at parses
  | ok lines =>
    cases accepted : compile (fun _ => .ok movedPlan) movedRaw [] with
    | error message => simp [accepted, Except.isOk, Except.toBool] at accepts
    | ok result =>
      obtain ⟨edits, projects, moves⟩ := exact_move_whole_or_elided rfl parsed accepted
      have positions : (parse movedRaw).toOption.map (fun lines =>
          (positionsOf lines '-'.toUInt8 (ascii "let moved = 1;"),
            positionsOf lines '+'.toUInt8 (ascii "let moved = 1;"))) = some ([4], [6]) := by
        decide +kernel
      rw [parsed] at positions
      obtain ⟨removed, added⟩ := Prod.mk.inj (Option.some.inj positions)
      exact ⟨lines, result, edits, rfl, projects, moves _ 4 6 removed added⟩

end Alera.ReadingDiff
