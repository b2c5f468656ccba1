/-
# Alera.Files.EditorText -- what the editor shows and what it saves

`workspace_files/editor_text.rs`: the editor shows a file with its tabs expanded.  On
save, lines at the start and at the end of the text that still read as they were shown
are written with their raw text, everything between them as it is shown.

A line is shown on its own (`splitLineSegments_expandFrom`), so that a raw line can stand
for what was shown for it wherever a line starts (`expandFrom_expandFrom_append`).
-/
import Mathlib.Data.List.Chain

namespace Alera.Files

set_option autoImplicit false

abbrev Text := List Char

/-! ## Lines and tabs -/

/-- A text in front of the first line. -/
def extendFirst (begun : Text) : List Text → List Text
  | [] => [begun]
  | line :: lines => (begun ++ line) :: lines

/-- `split_line_segments`: a line ends behind a newline, and behind a return that has no
newline behind it. -/
def splitLineSegments : Text → List Text
  | [] => []
  | c :: rest =>
    if c = '\n' ∨ c = '\r' ∧ rest.head? ≠ some '\n' then [c] :: splitLineSegments rest
    else extendFirst [c] (splitLineSegments rest)

/-- `normalize_workspace_editor_tab_size`. -/
def normalizeWorkspaceEditorTabSize (tabSize : Int) : Nat := (max 1 (min tabSize 8)).toNat

/-- The loop of `expand_workspace_editor_tabs`. -/
def expandFrom (tab : Nat) : Nat → Text → Text
  | _, [] => []
  | column, c :: rest =>
    if c = '\t' then
      let spaces := tab - column % tab
      List.replicate spaces ' ' ++ expandFrom tab (column + spaces) rest
    else c :: expandFrom tab (if c = '\n' ∨ c = '\r' then 0 else column + 1) rest

/-- `expand_workspace_editor_tabs`. -/
def expandWorkspaceEditorTabs (text : Text) (tabSize : Int) : Text :=
  expandFrom (normalizeWorkspaceEditorTabSize tabSize) 0 text

/-! ## Saving -/

/-- How many elements two lists start with in common. -/
def commonStart : List Text → List Text → Nat
  | a :: as, b :: bs => if a = b then commonStart as bs + 1 else 0
  | _, _ => 0

/-- What the last loop of `encode_workspace_editor_text_for_save` writes for a line. -/
def encodedSegment (raw : List Text) (segments first last index : Nat) (segment : Text) : Text :=
  if index < first then raw.getD index []
  else if index ≥ segments - last then raw.getD (raw.length - (segments - index)) []
  else segment

/-- `encode_workspace_editor_text_for_save`. -/
def encodeWorkspaceEditorTextForSave (current : Text) (originalRaw originalDisplay : Option Text) :
    Text :=
  match originalRaw, originalDisplay with
  | some raw, some display =>
    if current = display then raw
    else
      let raw := splitLineSegments raw
      let display := splitLineSegments display
      let segments := splitLineSegments current
      if raw.length ≠ display.length then current
      else
        let first := commonStart display segments
        let last := commonStart (display.drop first).reverse (segments.drop first).reverse
        (segments.mapIdx (encodedSegment raw segments.length first last)).flatten
  | _, _ => current

/-! ## A line and what is shown for it -/

section Expand

variable {tab : Nat}

theorem expandFrom_spaces (count column : Nat) (text : Text) :
    expandFrom tab column (List.replicate count ' ' ++ text) =
      List.replicate count ' ' ++ expandFrom tab (column + count) text := by
  induction count generalizing column with
  | zero => rfl
  | succ count ih => simp [List.replicate_succ, expandFrom, ih, Nat.add_right_comm, Nat.add_assoc]

/-- In front of any text, what is shown for a piece can stand for the piece. -/
theorem expandFrom_expandFrom_append (column : Nat) (text later : Text) :
    expandFrom tab column (expandFrom tab column text ++ later) =
      expandFrom tab column (text ++ later) := by
  induction text generalizing column with
  | nil => rfl
  | cons c rest ih =>
    by_cases isTab : c = '\t'
    · simp [expandFrom, isTab, expandFrom_spaces, ih]
    · simp [expandFrom, isTab, ih]

theorem flatten_splitLineSegments (text : Text) : (splitLineSegments text).flatten = text := by
  induction text with
  | nil => rfl
  | cons c rest ih =>
    rw [splitLineSegments]
    split
    · simp [ih]
    · cases lines : splitLineSegments rest <;> simp_all [extendFirst]

/-- Behind such a line the columns are counted anew. -/
def Ended (tab : Nat) (line : Text) : Prop :=
  ∀ column later, expandFrom tab column (line ++ later) =
    expandFrom tab column line ++ expandFrom tab 0 later

/-- Every line with a line behind it is ended. -/
theorem isChain_splitLineSegments (text : Text) :
    (splitLineSegments text).IsChain fun line _ => Ended tab line := by
  induction text with
  | nil => exact .nil
  | cons c rest ih =>
    rw [splitLineSegments]
    split
    next ends =>
      refine ih.cons fun _ _ column later => ?_
      have noTab : c ≠ '\t' := by grind
      have zero : c = '\n' ∨ c = '\r' := ends.imp_right And.left
      simp [expandFrom, noTab, zero]
    · cases lines : splitLineSegments rest with
      | nil => exact .singleton _
      | cons line lines =>
        rw [lines] at ih
        refine List.isChain_cons.mpr ⟨fun next member column later => ?_, (List.isChain_cons.mp ih).2⟩
        have ended := (List.isChain_cons.mp ih).1 next member
        by_cases isTab : c = '\t'
        · simp [expandFrom, isTab, ended _ later]
        · simp [expandFrom, isTab, ended _ later]

/-- Lines that are shown alike where a line starts make texts that are shown alike. -/
theorem expandFrom_flatten {pieces lines : List Text}
    (ended : lines.IsChain fun line _ => Ended tab line)
    (alike : List.Forall₂ (fun piece line => ∀ later,
      expandFrom tab 0 (piece ++ later) = expandFrom tab 0 (line ++ later)) pieces lines) :
    expandFrom tab 0 pieces.flatten = expandFrom tab 0 lines.flatten := by
  induction alike with
  | nil => rfl
  | @cons piece line pieces lines first rest ih =>
    obtain ⟨here, behind⟩ := List.isChain_cons.mp ended
    rw [List.flatten_cons, List.flatten_cons, first]
    cases lines with
    | nil => cases rest; rfl
    | cons next lines => rw [here next rfl, here next rfl, ih behind]

theorem splitLineSegments_spaces (count : Nat) (text : Text) :
    splitLineSegments (List.replicate (count + 1) ' ' ++ text) =
      extendFirst (List.replicate (count + 1) ' ') (splitLineSegments text) := by
  induction count with
  | zero => simp [splitLineSegments]
  | succ count ih =>
    rw [List.replicate_succ, List.cons_append, splitLineSegments, ih]
    cases splitLineSegments text <;> rfl

/-- **A text is shown line by line**: the first line from the column the text starts at. -/
theorem splitLineSegments_expandFrom (positive : 0 < tab) (column : Nat) (text : Text) :
    splitLineSegments (expandFrom tab column text) =
      match splitLineSegments text with
      | [] => []
      | line :: lines => expandFrom tab column line :: lines.map (expandFrom tab 0) := by
  induction text generalizing column with
  | nil => rfl
  | cons c rest ih =>
    by_cases isTab : c = '\t'
    · obtain ⟨count, spaces⟩ : ∃ count, tab - column % tab = count + 1 :=
        Nat.exists_eq_add_one.mpr (Nat.sub_pos_of_lt (Nat.mod_lt _ positive))
      simp only [expandFrom, isTab, if_true, spaces, splitLineSegments_spaces, ih, splitLineSegments]
      cases splitLineSegments rest <;> simp [extendFirst, expandFrom, spaces]
    · -- A newline behind the character is shown behind it, and nothing else is shown as one.
      have next : ∀ column, (expandFrom tab column rest).head? = some '\n' ↔
          rest.head? = some '\n' := by
        intro column
        cases rest with
        | nil => rfl
        | cons d rest =>
          have spaces := Nat.sub_pos_of_lt (Nat.mod_lt column positive)
          by_cases behind : d = '\t'
          · simp [expandFrom, behind, List.head?_replicate, Nat.ne_of_gt spaces]
          · simp [expandFrom, behind]
      by_cases ends : c = '\n' ∨ c = '\r' ∧ rest.head? ≠ some '\n'
      · have zero : c = '\n' ∨ c = '\r' := ends.imp_right And.left
        cases lines : splitLineSegments rest <;>
          simp [expandFrom, isTab, splitLineSegments, next, ih, zero, ends, lines]
      · cases lines : splitLineSegments rest <;>
          simp [expandFrom, isTab, splitLineSegments, next, ih, ends, lines, extendFirst]

end Expand

theorem splitLineSegments_expand (text : Text) (tabSize : Int) :
    splitLineSegments (expandWorkspaceEditorTabs text tabSize) =
      (splitLineSegments text).map (expandFrom (normalizeWorkspaceEditorTabSize tabSize) 0) := by
  have positive : 0 < normalizeWorkspaceEditorTabSize tabSize := by
    rw [normalizeWorkspaceEditorTabSize]
    omega
  rw [expandWorkspaceEditorTabs, splitLineSegments_expandFrom positive]
  cases splitLineSegments text <;> rfl

theorem getElem?_of_lt_commonStart {as bs : List Text} {i : Nat} (before : i < commonStart as bs) :
    as[i]? = bs[i]? := by
  induction as generalizing bs i with
  | nil => cases bs <;> cases before
  | cons a as ih =>
    cases bs with
    | nil => cases before
    | cons b bs =>
      rw [commonStart] at before
      split at before
      next same =>
        cases i with
        | zero => exact congrArg some same
        | succ i => exact ih (Nat.lt_of_succ_lt_succ before)
      next => cases before

section Encode

variable {tab : Nat} {raw segments : List Text}

theorem getD_alike {i j : Nat} (shown : (raw.map (expandFrom tab 0))[j]? = segments[i]?)
    (inside : i < segments.length) (later : Text) :
    expandFrom tab 0 (raw.getD j [] ++ later) = expandFrom tab 0 (segments[i] ++ later) := by
  rw [List.getElem?_map, List.getElem?_eq_getElem inside] at shown
  obtain ⟨line, here, same⟩ := Option.map_eq_some_iff.mp shown
  rw [List.getD, here, ← same, Option.getD_some, expandFrom_expandFrom_append]

/-- What is written for a line is shown as the line. -/
theorem encodedSegment_alike {first last : Nat}
    (isFirst : first = commonStart (raw.map (expandFrom tab 0)) segments)
    (isLast : last = commonStart ((raw.map (expandFrom tab 0)).drop first).reverse
      (segments.drop first).reverse)
    {i : Nat} (inside : i < segments.length) (later : Text) :
    expandFrom tab 0 (encodedSegment raw segments.length first last i segments[i] ++ later) =
      expandFrom tab 0 (segments[i] ++ later) := by
  rw [encodedSegment]
  split
  next before =>
    subst isFirst
    exact getD_alike (getElem?_of_lt_commonStart before) inside later
  split
  next _ behind =>
    refine getD_alike ?_ inside later
    have counted : segments.length - 1 - i < last := by omega
    have same := getElem?_of_lt_commonStart (isLast ▸ counted)
    grind
  next => rfl

end Encode

/-- **Saving keeps what is shown**, and an untouched text is saved as it was. -/
theorem expand_encodeWorkspaceEditorTextForSave (raw current : Text) (tabSize : Int) :
    let display := expandWorkspaceEditorTabs raw tabSize
    expandWorkspaceEditorTabs
        (encodeWorkspaceEditorTextForSave current (some raw) (some display)) tabSize =
      expandWorkspaceEditorTabs current tabSize ∧
    encodeWorkspaceEditorTextForSave display (some raw) (some display) = raw := by
  intro display
  refine ⟨?_, if_pos rfl⟩
  by_cases same : current = display
  · have shown := @expandFrom_expandFrom_append (normalizeWorkspaceEditorTabSize tabSize) 0 raw []
    rw [List.append_nil, List.append_nil] at shown
    rw [encodeWorkspaceEditorTextForSave, if_pos same, same]
    exact shown.symm
  · simp only [encodeWorkspaceEditorTextForSave, if_neg same, display, splitLineSegments_expand,
      List.length_map, ne_eq, not_true_eq_false, if_false]
    conv_rhs => rw [← flatten_splitLineSegments current]
    refine expandFrom_flatten (isChain_splitLineSegments current)
      (List.forall₂_iff_get.mpr ⟨by simp, fun i inside inside' later => ?_⟩)
    simpa using encodedSegment_alike rfl rfl inside' later

end Alera.Files
