/-
# Alera.Automation.PromptTemplates -- rendering the prompt of an automation

`automation_templates.rs`.  The code scans a template twice with a cursor, once to
validate it and once to render it, and then redacts credentials from the whole text.

`pieces` reads a template one character after the other instead, and says what its
variables are; `substitute` replaces them.  The two scans agree with it on every
template that is accepted (`renderVariables_eq`).

The redaction splits the text at white space and joins the tokens with single spaces, so
a prompt keeps its line breaks and its indentation only when it has none
(`rendered_prompt_iff`).
-/
import Alera.Cloud.Sessions
import Alera.Theory.Lists

namespace Alera.Automation.Templates

open Theory List
open Cloud (trim isWhitespace byteLength)

set_option autoImplicit false

abbrev Text := List Char

/-! ## The code -/

/-- `KNOWN_VARIABLES`. -/
def knownVariables : List Text :=
  ["automation.id", "automation.name", "automation.slug", "run.id", "run.number", "run.scheduledAt",
    "workspace.id", "workspace.name", "workspace.path", "project.id", "project.name"].map String.toList

/-- `AUTOMATION_MAX_PROMPT_BYTES`. -/
def maxPromptBytes : Nat := 128 * 1024

/-- `AUTOMATION_MAX_RENDERED_PROMPT_BYTES`. -/
def maxRenderedPromptBytes : Nat := 128 * 1024

def opening : Text := ['\x7b', '\x7b']

def closing : Text := ['\x7d', '\x7d']

def unterminated : Text := "prompt template contains an unterminated variable".toList

def unknownVariable (variable_ : Text) : Text :=
  "unknown prompt variable: ".toList ++ opening ++ variable_ ++ closing

/-- The loop of `validate_prompt_template`, from a cursor to the one behind the last variable.  Each
round moves the cursor on, so that the length of the template is enough fuel. -/
def scanVariables (template : Text) : Nat → Nat → Except Text Nat
  | 0, cursor => .ok cursor
  | fuel + 1, cursor =>
    match find opening (template.drop cursor) with
    | none => .ok cursor
    | some startOffset =>
      let start := cursor + startOffset
      match find closing (template.drop (start + 2)) with
      | none => .error unterminated
      | some endOffset =>
        let stop := start + 2 + endOffset
        let variable_ := trim (slice template (start + 2) stop)
        if knownVariables.contains variable_ then scanVariables template fuel (stop + 2)
        else .error (unknownVariable variable_)

/-- `validate_prompt_template`. -/
def validatePromptTemplate (template : Text) : Except Text Unit := do
  if (trim template).isEmpty then throw "prompt template is required".toList
  if byteLength template > maxPromptBytes then throw "prompt template is too large".toList
  let cursor ← scanVariables template (template.length + 1) 0
  if (find closing (template.drop cursor)).isSome then
    throw "prompt template contains an unmatched closing delimiter".toList

/-- The loop of `render_prompt_template`. -/
def renderVariables (template : Text) (values : Text → Option Text) : Nat → Nat → Text → Except Text Text
  | 0, cursor, rendered => .ok (rendered ++ template.drop cursor)
  | fuel + 1, cursor, rendered =>
    match find opening (template.drop cursor) with
    | none => .ok (rendered ++ template.drop cursor)
    | some startOffset =>
      let start := cursor + startOffset
      let rendered := rendered ++ slice template cursor start
      match find closing (template.drop (start + 2)) with
      | none => .error unterminated
      | some endOffset =>
        let stop := start + 2 + endOffset
        let variable_ := trim (slice template (start + 2) stop)
        match values variable_ with
        | none => .error ("could not resolve prompt variable: ".toList ++ variable_)
        | some value => renderVariables template values fuel (stop + 2) (rendered ++ value)

/-- The beginnings of known credentials. -/
def credentialPrefixes : List Text :=
  ["sk-", "ghp_", "github_pat_", "xoxb-", "bearer=", "token="].map String.toList

def redacted : Text := "[redacted]".toList

def redactToken (token : Text) : Text :=
  if credentialPrefixes.any (·.isPrefixOf (token.map Char.toLower)) then redacted else token

/-- `redact_known_patterns`. -/
def redactKnownPatterns (value : Text) : Text :=
  List.intercalate [' '] ((splitWords isWhitespace value).map redactToken)

/-- `render_prompt_template`, of the template of a definition. -/
def renderPromptTemplate (template : Text) (values : Text → Option Text) : Except Text Text := do
  validatePromptTemplate template
  let rendered ← renderVariables template values (template.length + 1) 0 []
  if byteLength rendered > maxRenderedPromptBytes then throw "rendered prompt is too large".toList
  return redactKnownPatterns rendered

/-! ## What a template says -/

inductive Piece where
  | char (c : Char)
  | variable (name : Text)
  deriving DecidableEq

/-- A template read from left to right, outside of delimiters or behind the reversed beginning of
a variable. -/
def pieces : Option Text → Text → List Piece
  | none, '\x7b' :: '\x7b' :: rest => pieces (some []) rest
  | none, c :: rest => .char c :: pieces none rest
  | some begun, '\x7d' :: '\x7d' :: rest => .variable (trim begun.reverse) :: pieces none rest
  | some begun, c :: rest => pieces (some (c :: begun)) rest
  | _, [] => []

def Piece.text (values : Text → Option Text) : Piece → Text
  | .char c => [c]
  | .variable name => (values name).getD []

/-- Each variable replaced once by its value. -/
def substitute (values : Text → Option Text) (template : Text) : Text :=
  (pieces none template).flatMap (Piece.text values)

def Piece.defined (values : Text → Option Text) : Piece → Bool
  | .char _ => true
  | .variable name => (values name).isSome

/-- The values define every variable. -/
def Defines (values : Text → Option Text) (template : List Piece) : Prop :=
  ∀ piece ∈ template, piece.defined values = true

/-- The credentials of a text replaced, and everything else kept. -/
def redactCredentials (value : Text) : Text := mapWords isWhitespace redactToken value

/-! ## The scans read the template -/

section Reading

variable {text : Text}

theorem pieces_char {c : Char} {rest : Text} (elsewhere : opening.isPrefixOf (c :: rest) = false) :
    pieces none (c :: rest) = .char c :: pieces none rest := by
  rw [pieces.eq_def]
  split
  · rename_i isOpening
    cases isOpening
    simp [opening] at elsewhere
  · rename_i isCons
    cases isCons
    rfl
  all_goals contradiction

theorem pieces_inside {begun : Text} {c : Char} {rest : Text}
    (elsewhere : closing.isPrefixOf (c :: rest) = false) :
    pieces (some begun) (c :: rest) = pieces (some (c :: begun)) rest := by
  rw [pieces.eq_def]
  split
  · contradiction
  · contradiction
  · rename_i isClosing
    cases isClosing
    simp [closing] at elsewhere
  · rename_i isSome isCons
    cases isSome
    cases isCons
    rfl
  · contradiction

theorem exists_of_isPrefixOf {pattern : Text} (here : pattern.isPrefixOf text = true) :
    ∃ rest, text = pattern ++ rest := by
  obtain ⟨rest, rfl⟩ := isPrefixOf_iff_prefix.mp here
  exact ⟨rest, rfl⟩

theorem pieces_of_find_none (absent : find opening text = none) : pieces none text = text.map .char := by
  induction text with
  | nil => rfl
  | cons c rest ih =>
    cases here : opening.isPrefixOf (c :: rest) with
    | true =>
      rw [find_of_start here] at absent
      cases absent
    | false =>
      rw [find_cons here, Option.map_eq_none_iff] at absent
      rw [pieces_char here, ih absent, map_cons]

theorem pieces_of_find_opening {n : Nat} (found : find opening text = some n) :
    pieces none text = (text.take n).map .char ++ pieces (some []) (text.drop (n + 2)) := by
  induction text generalizing n with
  | nil => cases found
  | cons c rest ih =>
    cases here : opening.isPrefixOf (c :: rest) with
    | true =>
      obtain ⟨later, isOpening⟩ := exists_of_isPrefixOf here
      rw [find_of_start here] at found
      cases found
      rw [isOpening]
      rfl
    | false =>
      rw [find_cons here] at found
      obtain ⟨m, foundLater, rfl⟩ := Option.map_eq_some_iff.mp found
      rw [pieces_char here, ih foundLater]
      rfl

theorem pieces_of_find_closing {begun : Text} {n : Nat} (found : find closing text = some n) :
    pieces (some begun) text =
      .variable (trim (begun.reverse ++ text.take n)) :: pieces none (text.drop (n + 2)) := by
  induction text generalizing n begun with
  | nil => cases found
  | cons c rest ih =>
    cases here : closing.isPrefixOf (c :: rest) with
    | true =>
      obtain ⟨later, isClosing⟩ := exists_of_isPrefixOf here
      rw [find_of_start here] at found
      cases found
      rw [isClosing, take_zero, append_nil]
      rfl
    | false =>
      rw [find_cons here] at found
      obtain ⟨m, foundLater, rfl⟩ := Option.map_eq_some_iff.mp found
      rw [pieces_inside here, ih foundLater, reverse_cons, append_assoc]
      rfl

end Reading

theorem flatMap_char (values : Text → Option Text) (text : Text) :
    (text.map Piece.char).flatMap (Piece.text values) = text := by
  induction text with
  | nil => rfl
  | cons c rest ih =>
    rw [map_cons, flatMap_cons, ih]
    rfl

/-- The text between two searches is a slice of the template. -/
theorem take_drop_eq_slice (template : Text) (start length : Nat) :
    (template.drop start).take length = slice template start (start + length) := by
  rw [slice, Nat.add_sub_cancel_left]

variable {values : Text → Option Text}

/-- **Rendering replaces what validation has read.**  Both loops go from one cursor to the next, and
what lies behind the cursor is rendered as its pieces say. -/
theorem renderVariables_eq {template : Text} {fuel cursor last : Nat}
    {rendered : Text} (enough : template.length - cursor < fuel)
    (scanned : scanVariables template fuel cursor = .ok last)
    (defined : Defines values (pieces none (template.drop cursor))) :
    renderVariables template values fuel cursor rendered =
      .ok (rendered ++ (pieces none (template.drop cursor)).flatMap (Piece.text values)) := by
  induction fuel generalizing cursor rendered with
  | zero => omega
  | succ fuel ih =>
    rw [scanVariables] at scanned
    rw [renderVariables]
    cases opens : find opening (template.drop cursor) with
    | none => rw [pieces_of_find_none opens, flatMap_char]
    | some startOffset =>
      simp only [opens] at scanned
      have startInside := find_le opens
      cases closes : find closing (template.drop (cursor + startOffset + 2)) with
      | none =>
        simp only [closes] at scanned
        cases scanned
      | some endOffset =>
        simp only [closes] at scanned ⊢
        have stopInside := find_le closes
        simp only [opening, closing, length_drop, length_cons, length_nil] at startInside stopInside
        split at scanned
        · have split : pieces none (template.drop cursor) =
              (slice template cursor (cursor + startOffset)).map .char ++
                .variable (trim (slice template (cursor + startOffset + 2) (cursor + startOffset + 2 + endOffset))) ::
                  pieces none (template.drop (cursor + startOffset + 2 + endOffset + 2)) := by
            rw [pieces_of_find_opening opens, drop_drop, take_drop_eq_slice, ← Nat.add_assoc,
              pieces_of_find_closing closes, drop_drop, take_drop_eq_slice]
            rfl
          rw [split] at defined ⊢
          have isDefined := defined _ (mem_append_right _ mem_cons_self)
          obtain ⟨value, isValue⟩ := Option.isSome_iff_exists.mp isDefined
          simp only [isValue]
          rw [ih (by omega) scanned fun piece member =>
            defined piece (mem_append_right _ (.tail _ member))]
          rw [flatMap_append, flatMap_char, flatMap_cons, Piece.text, isValue]
          simp only [Option.getD_some, append_assoc]
        · cases scanned

/-- What a rendered prompt is, before and after redaction. -/
theorem renderPromptTemplate_eq {template : Text}
    (accepted : validatePromptTemplate template = .ok ()) (defined : Defines values (pieces none template))
    (small : byteLength (substitute values template) ≤ maxRenderedPromptBytes) :
    renderPromptTemplate template values = .ok (redactKnownPatterns (substitute values template)) := by
  have scanned : ∃ last, scanVariables template (template.length + 1) 0 = .ok last := by
    cases scan : scanVariables template (template.length + 1) 0 with
    | ok last => exact ⟨last, rfl⟩
    | error text =>
      simp only [validatePromptTemplate, scan] at accepted
      split at accepted
      · cases accepted
      · split at accepted
        · cases accepted
        · cases accepted
  obtain ⟨last, scanned⟩ := scanned
  have rendered : renderVariables template values (template.length + 1) 0 [] =
      .ok (substitute values template) := renderVariables_eq (by omega) scanned defined
  have fits : ¬byteLength (substitute values template) > maxRenderedPromptBytes := Nat.not_lt.mpr small
  rw [renderPromptTemplate, accepted, rendered]
  simp only [bind, Except.bind, if_neg fits]
  rfl

/-! ## The redaction joins what it has split -/

theorem isWord_redactToken {token : Text} (isWord : IsWord isWhitespace token) :
    IsWord isWhitespace (redactToken token) := by
  rw [redactToken]
  split
  · decide
  · exact isWord

/-- **A rendered prompt is the template with its variables and credentials replaced, and nothing else
changed, exactly when the substituted text has no white space but single spaces between its words.** -/
theorem rendered_prompt_iff (template : Text) (values : Text → Option Text)
    (accepted : validatePromptTemplate template = .ok ()) (defined : Defines values (pieces none template))
    (small : byteLength (substitute values template) ≤ maxRenderedPromptBytes) :
    renderPromptTemplate template values = .ok (redactCredentials (substitute values template)) ↔
      Spaced isWhitespace ' ' (substitute values template) := by
  rw [renderPromptTemplate_eq accepted defined small, Except.ok.injEq]
  apply intercalate_map_eq_mapWords_iff
  · decide
  · exact fun token isWord => isWord_redactToken isWord

/-- The values of a run whose id is `7`. -/
def runValues (name : Text) : Option Text :=
  if name = "run.id".toList then some "7".toList else none

/-- On one line the prompt is as it should be. -/
theorem rendered_prompt_iff_one_line :
    renderPromptTemplate "Review \x7b\x7b run.id \x7d\x7d with token=abc".toList runValues =
      .ok (redactCredentials (substitute runValues "Review \x7b\x7b run.id \x7d\x7d with token=abc".toList)) := by
  refine (rendered_prompt_iff _ _ (by decide +kernel) ?_ (by decide +kernel)).mpr ?_
  · rw [Defines]
    decide +kernel
  refine ⟨["Review", "7", "with", "token=abc"].map String.toList, ?_, by decide +kernel⟩
  decide +kernel

/-- Two lines become one. -/
theorem rendering_joins_lines :
    validatePromptTemplate "Fix:\n  a\n  b".toList = .ok () ∧
      renderPromptTemplate "Fix:\n  a\n  b".toList runValues = .ok "Fix: a b".toList ∧
      redactCredentials (substitute runValues "Fix:\n  a\n  b".toList) = "Fix:\n  a\n  b".toList := by
  decide +kernel

end Alera.Automation.Templates
