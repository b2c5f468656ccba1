/-
# Alera.ReadingDiff.PlanCompiler -- a plan applied to a diff

`reading_diff/plan.rs` and `reading_diff/compiler.rs`: an agent's plan says which rows of a
diff to remove, to fold into one, and where to put an ellipsis.  `compileWithSource` refuses
a plan that reaches beyond the source rows of hunks, that claims a line twice, that puts
in text which the row does not have, or that tears a move apart.

How a plan is read from its JSON is a parameter (`decode`).  Rows are numbered from one in a
plan and in errors.
-/
import Alera.Cloud.Sessions
import Alera.Theory.Runs
import Alera.Theory.Utf8Validation

namespace Alera.ReadingDiff

open Theory Utf8
open Cloud (isWhitespace trim byteLength)

set_option autoImplicit false

/-! ## The lines of a diff

`reading_diff/diff.rs`: a diff is split into lines, and each line is given its file, its
hunk and what may be an import in it.  A line is a row of a hunk's source, a marker for a
missing final newline, or structural.

The parser goes through the lines with a small state (`ParseState`): the file and hunk it
is in, how many rows the hunk still has, and the syntax of the two sides of the file.
Headers reset it: a `diff --git` line makes it forget the file before, a hunk header the
hunk before.
-/

abbrev Bytes := List UInt8
abbrev Text := List Char

/-- The bytes of a text in ASCII. -/
def ascii (text : String) : Bytes := text.toList.map Char.toUInt8

/-! ## Lines -/

inductive LineKind where
  | structural
  | hunkSource
  | noNewline
deriving DecidableEq

/-- `ImportSyntax`. -/
structure ImportSyntax where
  importKeyword : Bool
  pythonFrom : Bool
  jsReexport : Bool
  cInclude : Bool
deriving DecidableEq

/-- What may be an import: on one side of a file, or in a row. -/
structure Allowed where
  importSyntax : ImportSyntax
  commonJsImports : Bool
  rustImports : Bool
deriving DecidableEq

/-- Nothing, as at the start of a file. -/
def Allowed.nothing : Allowed := ⟨⟨false, false, false, false⟩, false, false⟩

/-- `SourceLine`, the six `allows_` flags as one field. -/
structure SourceLine where
  text : Bytes
  eol : Bytes
  kind : LineKind
  marker : Option UInt8
  fileId : Option Nat
  hunkId : Option Nat
  allows : Allowed
deriving DecidableEq

/-- A line before it is parsed. -/
def SourceLine.unparsed (text eol : Bytes) : SourceLine :=
  ⟨text, eol, .structural, none, none, none, .nothing⟩

/-- A line that is ended by a newline, from its bytes in reverse. -/
def SourceLine.ended : Bytes → SourceLine
  | 13 :: reversed => .unparsed reversed.reverse [13, 10]
  | reversed => .unparsed reversed.reverse [10]

/-- `split_lines`, behind the reversed beginning of a line. -/
def splitLinesFrom : Bytes → Bytes → List SourceLine
  | reversed, [] => if reversed.isEmpty then [] else [.unparsed reversed.reverse []]
  | reversed, byte :: rest =>
    if byte = 10 then SourceLine.ended reversed :: splitLinesFrom [] rest
    else splitLinesFrom (byte :: reversed) rest

/-- `split_lines`. -/
def splitLines (raw : Bytes) : List SourceLine := splitLinesFrom [] raw

/-- `source_body`. -/
def sourceBody (line : SourceLine) : Bytes := line.text.drop 1

/-- An added or a removed row. -/
def SourceLine.isChanged (line : SourceLine) : Bool :=
  line.marker == some '+'.toUInt8 || line.marker == some '-'.toUInt8

/-! ## The syntax of a path -/

/-- `u8::to_ascii_lowercase`. -/
def asciiLowercase (byte : UInt8) : UInt8 :=
  if 65 ≤ byte.toNat ∧ byte.toNat ≤ 90 then byte + 32 else byte

/-- `path_has_extension`; the extensions are in lower case. -/
def pathHasExtension (path : Bytes) (extensions : List String) : Bool :=
  let path := path.takeWhile (· != 9)
  if path == ascii "/dev/null" then false
  else
    let path := if path.getLast? == some '"'.toUInt8 then path.dropLast else path
    let extension := (path.reverse.takeWhile (· != '.'.toUInt8)).reverse
    extensions.any fun candidate => extension.map asciiLowercase == ascii candidate

/-- `is_common_js_path`. -/
def isCommonJsPath (path : Bytes) : Bool :=
  pathHasExtension path ["js", "cjs", "mjs", "jsx", "ts", "cts", "mts", "tsx"]

/-- `is_rust_path`. -/
def isRustPath (path : Bytes) : Bool := pathHasExtension path ["rs"]

/-- `import_syntax_for_path`. -/
def importSyntaxForPath (path : Bytes) : ImportSyntax :=
  let python := pathHasExtension path ["py", "pyi"]
  let javascript := isCommonJsPath path
  let importKeyword := python || javascript || pathHasExtension path
    ["dart", "java", "kt", "kts", "go", "swift", "scala", "groovy", "cc", "cpp", "cxx", "ixx", "cppm"]
  let cInclude := pathHasExtension path
    ["c", "h", "cc", "cpp", "cxx", "hh", "hpp", "hxx", "m", "mm"]
  ⟨importKeyword, python, javascript, cInclude⟩

/-- What the path of one side allows. -/
def Allowed.ofPath (path : Bytes) : Allowed :=
  ⟨importSyntaxForPath path, isCommonJsPath path, isRustPath path⟩

/-- `ImportSyntax::intersection`, and that of the other flags. -/
def Allowed.intersection (one other : Allowed) : Allowed :=
  ⟨⟨one.importSyntax.importKeyword && other.importSyntax.importKeyword,
    one.importSyntax.pythonFrom && other.importSyntax.pythonFrom,
    one.importSyntax.jsReexport && other.importSyntax.jsReexport,
    one.importSyntax.cInclude && other.importSyntax.cInclude⟩,
    one.commonJsImports && other.commonJsImports, one.rustImports && other.rustImports⟩

/-! ## Hunk headers -/

/-- `str::parse::<usize>`: digits, possibly behind a plus sign. -/
def parseUsize (text : Text) : Option Nat :=
  let digits := if text.head? == some '+' then text.tail else text
  if digits.isEmpty || !digits.all Char.isDigit then none
  else
    let value := digits.foldl (fun value c => 10 * value + (c.toNat - '0'.toNat)) 0
    if value < 2 ^ 64 then some value else none

/-- `parse_range_count`. -/
def parseRangeCount (value : Text) (marker : Char) : Option Nat :=
  match value with
  | [] => none
  | c :: range =>
    if c = marker then
      parseUsize (if range.contains ',' then (range.dropWhile (· != ',')).tail else ['1'])
    else none

/-- `parse_hunk_counts`. -/
def parseHunkCounts (line : Bytes) : Option (Nat × Nat) := do
  let text ← decodeUtf8 line
  let body ← if "@@ ".toList.isPrefixOf text then some (text.drop 3) else none
  let closing ← find " @@".toList body
  match splitWords isWhitespace (body.take closing) with
  | old :: new :: _ => do
      let old ← parseRangeCount old '-'
      let new ← parseRangeCount new '+'
      some (old, new)
  | _ => none

/-! ## The parser -/

/-- What the parser knows when it comes to a line. -/
structure ParseState where
  fileId : Option Nat
  hunkId : Option Nat
  nextFile : Nat
  nextHunk : Nat
  /-- The rows of the old and of the new side that the hunk still has. -/
  remaining : Option (Nat × Nat)
  old : Allowed
  new : Allowed

namespace ParseState

def start : ParseState := ⟨none, none, 0, 0, none, .nothing, .nothing⟩

/-- At a `diff --git` line. -/
def enterFile (state : ParseState) : ParseState :=
  { state with
    fileId := some state.nextFile
    nextFile := state.nextFile + 1
    hunkId := none
    remaining := none
    old := .nothing
    new := .nothing }

/-- At the signature behind a patch. -/
def leaveFile (state : ParseState) : ParseState :=
  { state with fileId := none, hunkId := none, remaining := none }

/-- The paths of the two sides, outside of a hunk. -/
def readPaths (text : Bytes) (state : ParseState) : ParseState :=
  if state.remaining.isSome then state
  else if (ascii "--- ").isPrefixOf text then { state with old := .ofPath (text.drop 4) }
  else if (ascii "+++ ").isPrefixOf text then { state with new := .ofPath (text.drop 4) }
  else state

/-- What a line changes before it is looked at itself. -/
def before (text : Bytes) (state : ParseState) : ParseState :=
  let state := if (ascii "diff --git ").isPrefixOf text then state.enterFile else state
  let state :=
    if text == ascii "-- " && state.remaining == some (0, 0) then state.leaveFile else state
  state.readPaths text

def openHunk (counts : Nat × Nat) (state : ParseState) : ParseState :=
  { state with
    hunkId := some state.nextHunk
    nextHunk := state.nextHunk + 1
    remaining := some counts }

/-- The line behind the last row of a hunk. -/
def closeHunk (state : ParseState) : ParseState := { state with hunkId := none, remaining := none }

/-- What a row with a marker may import. -/
def allowsFor (marker : UInt8) (state : ParseState) : Allowed :=
  if marker = '-'.toUInt8 then state.old
  else if marker = '+'.toUInt8 then state.new
  else state.old.intersection state.new

end ParseState

/-- The line in the file and the hunk of the parser. -/
def SourceLine.within (state : ParseState) (line : SourceLine) : SourceLine :=
  { line with fileId := state.fileId, hunkId := state.hunkId }

/-- The rows that are left behind a row with this marker. -/
def countRow (marker : UInt8) (counts : Nat × Nat) : Option (Nat × Nat) :=
  if marker = ' '.toUInt8 then some (counts.1 - 1, counts.2 - 1)
  else if marker = '-'.toUInt8 then some (counts.1 - 1, counts.2)
  else if marker = '+'.toUInt8 then some (counts.1, counts.2 - 1)
  else none

/-- A row of a hunk that still has rows. -/
def parseRow (number : Nat) (state : ParseState) (line : SourceLine) (counts : Nat × Nat) :
    Except String (ParseState × SourceLine) :=
  match line.text.head? with
  | none => .error s!"Empty source row in hunk on line {number}."
  | some marker =>
    match countRow marker counts with
    | none => .error s!"Unexpected hunk row on line {number}."
    | some counts =>
      .ok ({ state with remaining := some counts },
        { line.within state with
          kind := .hunkSource
          marker := some marker
          allows := state.allowsFor marker })

def noNewlineText : Bytes := ascii "\\ No newline at end of file"

/-- The body of the loop of `parse`, for the line of this number. -/
def parseLine (number : Nat) (state : ParseState) (line : SourceLine) :
    Except String (ParseState × SourceLine) :=
  if (ascii "diff --cc ").isPrefixOf line.text || (ascii "diff --combined ").isPrefixOf line.text then
    .error s!"Combined diff on line {number} is unsupported; use a normal two-tree diff."
  else
    let state := state.before line.text
    if (ascii "@@@").isPrefixOf line.text then
      .error s!"Combined diff hunk on line {number} is unsupported; use a normal two-tree diff."
    else if (ascii "@@ ").isPrefixOf line.text then
      match parseHunkCounts line.text with
      | none => .error s!"Malformed hunk header on line {number}."
      | some counts => .ok (state.openHunk counts, line.within (state.openHunk counts))
    else if line.text == noNewlineText then
      .ok (state, { line.within state with kind := .noNewline })
    else
      match state.remaining with
      | none => .ok (state, line.within state)
      | some (0, 0) => .ok (state.closeHunk, line.within state.closeHunk)
      | some counts => parseRow number state line counts

/-- The loop of `parse`, from a line number on. -/
def parseLines (number : Nat) (state : ParseState) :
    List SourceLine → Except String (ParseState × List SourceLine)
  | [] => .ok (state, [])
  | line :: rest => do
      let (state, line) ← parseLine number state line
      let (state, rest) ← parseLines (number + 1) state rest
      .ok (state, line :: rest)

/-- `parse`. -/
def parse (raw : Bytes) : Except String (List SourceLine) := do
  let (state, lines) ← parseLines 1 .start (splitLines raw)
  if state.remaining.any fun counts => counts != (0, 0) then
    .error "The final hunk counts are inconsistent with its source rows."
  else .ok lines

/-! ## What parsing leaves -/

/-- Structural lines have no marker, and the marker of a row is its first byte. -/
structure SourceLine.Parsed (line : SourceLine) : Prop where
  row : line.kind = .hunkSource → ∃ marker rest, line.marker = some marker ∧ line.text = marker :: rest
  other : line.kind ≠ .hunkSource → line.marker = none

variable {number : Nat} {state next : ParseState} {line : SourceLine}

theorem parseRow_ok {text eol : Bytes} {counts : Nat × Nat}
    (parsed : parseRow number state (.unparsed text eol) counts = .ok (next, line)) :
    line.text = text ∧ line.eol = eol ∧ line.Parsed := by
  match text, parsed with
  | marker :: rest, parsed =>
    change (match countRow marker counts with
      | none => _
      | some counts => _) = _ at parsed
    cases counted : countRow marker counts with
    | none =>
      rw [counted] at parsed
      cases parsed
    | some left =>
      rw [counted] at parsed
      cases parsed
      exact ⟨rfl, rfl, fun _ => ⟨marker, rest, rfl, rfl⟩, fun not => absurd rfl not⟩

theorem parseLine_ok {text eol : Bytes}
    (parsed : parseLine number state (.unparsed text eol) = .ok (next, line)) :
    line.text = text ∧ line.eol = eol ∧ line.Parsed := by
  unfold parseLine at parsed
  obtain ⟨_, parsed⟩ := unless_ok parsed
  obtain ⟨_, parsed⟩ := unless_ok parsed
  split at parsed
  · split at parsed
    · cases parsed
    · cases parsed
      exact ⟨rfl, rfl, nofun, fun _ => rfl⟩
  · split at parsed
    · cases parsed
      exact ⟨rfl, rfl, nofun, fun _ => rfl⟩
    · split at parsed
      · cases parsed
        exact ⟨rfl, rfl, nofun, fun _ => rfl⟩
      · cases parsed
        exact ⟨rfl, rfl, nofun, fun _ => rfl⟩
      · exact parseRow_ok parsed

/-- Every line that is split off has not been parsed. -/
theorem exists_unparsed_of_mem_splitLinesFrom {reversed raw : Bytes}
    (member : line ∈ splitLinesFrom reversed raw) : ∃ text eol, line = .unparsed text eol := by
  induction raw generalizing reversed with
  | nil =>
    rw [splitLinesFrom] at member
    split at member
    · cases member
    · exact ⟨_, _, List.mem_singleton.mp member⟩
  | cons byte rest ih =>
    rw [splitLinesFrom] at member
    split at member
    · rcases List.mem_cons.mp member with rfl | later
      · unfold SourceLine.ended
        split
        · exact ⟨_, _, rfl⟩
        · exact ⟨_, _, rfl⟩
      · exact ih later
    · exact ih member

theorem parseLines_ok {lines parsed : List SourceLine}
    (unparsed : ∀ line ∈ lines, ∃ text eol, line = .unparsed text eol)
    (ok : parseLines number state lines = .ok (next, parsed)) :
    List.Forall₂ (fun line parsed => parsed.text = line.text ∧ parsed.eol = line.eol ∧ parsed.Parsed)
      lines parsed := by
  induction lines generalizing number state parsed with
  | nil =>
    cases ok
    exact .nil
  | cons line rest ih =>
    obtain ⟨⟨text, eol, rfl⟩, later⟩ := List.forall_mem_cons.mp unparsed
    obtain ⟨⟨_, here⟩, first, ok⟩ := bind_ok ok
    obtain ⟨⟨_, others⟩, remaining, ok⟩ := bind_ok ok
    cases ok
    exact .cons (parseLine_ok first) (ih later remaining)

/-- The lines of a diff that is accepted are those it is split into. -/
theorem parse_ok {raw : Bytes} {lines : List SourceLine} (ok : parse raw = .ok lines) :
    List.Forall₂ (fun line parsed => parsed.text = line.text ∧ parsed.eol = line.eol ∧ parsed.Parsed)
      (splitLines raw) lines := by
  obtain ⟨⟨state, parsed⟩, looped, ok⟩ := bind_ok ok
  change (if _ then _ else _) = _ at ok
  split at ok
  · cases ok
  · cases ok
    exact parseLines_ok (fun _ => exists_unparsed_of_mem_splitLinesFrom) looped

theorem parsed_of_parse {raw : Bytes} {lines : List SourceLine} (ok : parse raw = .ok lines) :
    ∀ line ∈ lines, line.Parsed := by
  intro line member
  obtain ⟨_, _, _, _, isParsed⟩ := forall₂_mem_right (parse_ok ok) member
  exact isParsed

/-! ## The rows that are imports or moves

`reading_diff/imports.rs`: a changed row that starts an import is hidden together with
the rows that continue it, and a hunk or a file of which nothing else has changed is
hidden as a whole.  A mask has one entry for each line.

The syntax that the scanners look for is ASCII, so going through the characters of a row
is going through its bytes.
-/

/-! ## How an import starts -/

/-- `str::trim_start`. -/
def trimStart (text : Text) : Text := text.dropWhile isWhitespace

/-- `str::trim_end`. -/
def trimEnd (text : Text) : Text := (text.reverse.dropWhile isWhitespace).reverse

/-- `str::starts_with`. -/
def startsWith (text : Text) (start : String) : Bool := start.toList.isPrefixOf text

/-- `str::contains`. -/
def containsText (text : Text) (part : String) : Bool := (find part.toList text).isSome

/-- The quotes of a string. -/
def isQuote (c : Char) : Bool := c == '\'' || c == '"' || c == '\x60'

/-- `common_js_require_suffix_is_empty`, behind the opening parenthesis; in a string the
quote it ends with is given. -/
def requireSuffixIsEmpty (depth : Nat) : Option Char → Text → Bool
  | _, [] => false
  | some _, ['\\'] => false
  | some quote, '\\' :: _ :: rest => requireSuffixIsEmpty depth (some quote) rest
  | some quote, c :: rest =>
    requireSuffixIsEmpty depth (if c = quote then none else some quote) rest
  | none, c :: rest =>
    if isQuote c then requireSuffixIsEmpty depth (some c) rest
    else if c = '(' then requireSuffixIsEmpty (depth + 1) none rest
    else if c = ')' then
      if depth = 1 then
        let suffix := trimStart rest
        suffix.isEmpty || suffix == [';'] || startsWith suffix "//"
      else requireSuffixIsEmpty (depth - 1) none rest
    else requireSuffixIsEmpty depth none rest

/-- `common_js_require_suffix_is_empty`. -/
def commonJsRequireSuffixIsEmpty (requireCall : Text) : Bool :=
  requireSuffixIsEmpty 1 none (requireCall.drop "require(".length)

/-- `starts_common_js_import`. -/
def startsCommonJsImport (trimmed : Text) : Bool :=
  if startsWith trimmed "require(" then commonJsRequireSuffixIsEmpty trimmed
  else if startsWith trimmed "const " then
    let declaration := trimmed.drop "const ".length
    match find "require(".toList declaration with
    | none => false
    | some index =>
      (trimEnd (declaration.take index)).getLast? == some '=' &&
        commonJsRequireSuffixIsEmpty (declaration.drop index)
  else false

/-- `starts_static_import`. -/
def startsStaticImport (trimmed : Text) (javascript : Bool) : Bool :=
  if startsWith trimmed "import " then
    let rest := trimStart (trimmed.drop "import ".length)
    !rest.isEmpty && (!javascript || !(rest.head? == some '(' || rest.head? == some '/'))
  else false

/-- `starts_brace_reexport`. -/
def startsBraceReexport (value : Text) : Bool :=
  value.head? == some '\x7b' && value.contains '\x7d' &&
    startsWith (trimStart (value.reverse.takeWhile (· != '\x7d')).reverse) "from "

/-- `starts_reexport`. -/
def startsReexport (trimmed : Text) : Bool :=
  if startsWith trimmed "export" then
    let rest := trimStart (trimmed.drop "export".length)
    if startsBraceReexport rest || startsWith rest "* from " then true
    else if startsWith rest "type" then
      let rest := trimStart (rest.drop "type".length)
      startsBraceReexport rest || startsWith rest "* from "
    else false
  else false

/-- `starts_import`. -/
def startsImport (trimmed : Text) (allows : Allowed) : Bool :=
  allows.importSyntax.importKeyword && startsStaticImport trimmed allows.importSyntax.jsReexport ||
  allows.importSyntax.jsReexport && startsReexport trimmed ||
  allows.importSyntax.pythonFrom && startsWith trimmed "from " && containsText trimmed " import " ||
  allows.rustImports && (startsWith trimmed "use " || startsWith trimmed "pub use ") ||
  allows.importSyntax.cInclude && (startsWith trimmed "#include " || startsWith trimmed "#include<") ||
  allows.commonJsImports && startsCommonJsImport trimmed

/-! ## Where an import ends -/

/-- How many parentheses, brackets and braces are open. -/
structure Balances where
  parentheses : Int
  brackets : Int
  braces : Int
deriving DecidableEq

/-- `ImportSyntaxScan`. -/
structure ImportSyntaxScan where
  balances : Balances
  explicitContinuation : Bool
  hasTrailingStatement : Bool
  reliable : Bool

/-- `ImportSyntaxScan::continues`. -/
def ImportSyntaxScan.continues (scan : ImportSyntaxScan) : Bool :=
  scan.balances != ⟨0, 0, 0⟩ || scan.explicitContinuation

/-- The variables of the loop of `scan_import_syntax`. -/
structure ScanState where
  balances : Balances
  afterTerminator : Bool
  hasTrailingStatement : Bool
  lastSyntax : Option Char

def ScanState.finish (state : ScanState) (reliable : Bool) : ImportSyntaxScan :=
  ⟨state.balances, state.lastSyntax == some '\\', state.hasTrailingStatement, reliable⟩

/-- A character of the syntax itself. -/
def ScanState.read (state : ScanState) (c : Char) : ScanState :=
  let open_ := state.balances
  let state :=
    if c = '(' then { state with balances := { open_ with parentheses := open_.parentheses + 1 } }
    else if c = ')' then
      { state with balances := { open_ with parentheses := open_.parentheses - 1 } }
    else if c = '[' then { state with balances := { open_ with brackets := open_.brackets + 1 } }
    else if c = ']' then { state with balances := { open_ with brackets := open_.brackets - 1 } }
    else if c = '\x7b' then { state with balances := { open_ with braces := open_.braces + 1 } }
    else if c = '\x7d' then { state with balances := { open_ with braces := open_.braces - 1 } }
    else if c = ';' ∧ open_ = ⟨0, 0, 0⟩ then { state with afterTerminator := true }
    else if state.afterTerminator then { state with hasTrailingStatement := true }
    else state
  { state with lastSyntax := some c }

/-- What the scanner is inside of. -/
inductive ScanMode where
  | syntaxItself
  | comment
  | quoted (quote : Char)

/-- `u8::is_ascii_whitespace`. -/
def isAsciiWhitespace (byte : Nat) : Bool :=
  byte == 32 || byte == 9 || byte == 10 || byte == 12 || byte == 13

/-- The loop of `scan_import_syntax`. -/
def scanFrom (hashComments : Bool) : ScanMode → ScanState → Text → ImportSyntaxScan
  | .syntaxItself, state, [] => state.finish true
  | .comment, state, [] => state.finish false
  | .quoted _, state, [] => state.finish false
  | .comment, state, '*' :: '/' :: rest => scanFrom hashComments .syntaxItself state rest
  | .comment, state, _ :: rest => scanFrom hashComments .comment state rest
  | .quoted _, state, ['\\'] => state.finish false
  | .quoted quote, state, '\\' :: _ :: rest => scanFrom hashComments (.quoted quote) state rest
  | .quoted quote, state, c :: rest =>
    if c = quote then
      scanFrom hashComments .syntaxItself { state with lastSyntax := some quote } rest
    else scanFrom hashComments (.quoted quote) state rest
  | .syntaxItself, state, '/' :: '*' :: rest => scanFrom hashComments .comment state rest
  | .syntaxItself, state, c :: rest =>
    if isAsciiWhitespace c.toNat then scanFrom hashComments .syntaxItself state rest
    else if hashComments && c == '#' || c == '/' && rest.head? == some '/' then state.finish true
    else if isQuote c then
      scanFrom hashComments (.quoted c)
        { state with
          hasTrailingStatement := state.hasTrailingStatement || state.afterTerminator } rest
    else scanFrom hashComments .syntaxItself (state.read c) rest

/-- `scan_import_syntax`. -/
def scanImportSyntax (value : Text) (balances : Balances) (hashComments : Bool) :
    ImportSyntaxScan :=
  scanFrom hashComments .syntaxItself ⟨balances, false, false, none⟩ value

/-! ## The mask -/

/-- The text of a row. -/
def bodyText (line : SourceLine) : Text := fromUtf8Lossy (sourceBody line)

/-- The rows behind `first` that its import goes on in, and those between them; `none` if
there is more than the import, or no end of it in the hunk. -/
def continueImport (first : SourceLine) (scan : ImportSyntaxScan) :
    List SourceLine → Option (List Bool)
  | [] => if scan.continues then none else some []
  | next :: rest =>
    if !scan.continues then some []
    else if next.kind ≠ .hunkSource ∨ next.fileId ≠ first.fileId ∨ next.hunkId ≠ first.hunkId then
      none
    else if next.marker ≠ first.marker ∧ next.marker ≠ some ' '.toUInt8 then
      (continueImport first scan rest).map (false :: ·)
    else
      let scan := scanImportSyntax (bodyText next) scan.balances first.allows.importSyntax.pythonFrom
      if !scan.reliable || scan.hasTrailingStatement then none
      else (continueImport first scan rest).map (true :: ·)

/-- The rows of the import that starts at a line, `none` if there is none. -/
def importAt (line : SourceLine) (rest : List SourceLine) : Option (List Bool) :=
  if line.kind ≠ .hunkSource ∨ !line.isChanged then none
  else if !startsImport (trimStart (bodyText line)) line.allows then none
  else
    let scan := scanImportSyntax (bodyText line) ⟨0, 0, 0⟩ line.allows.importSyntax.pythonFrom
    if !scan.reliable || scan.hasTrailingStatement then none
    else (continueImport line scan rest).map (true :: ·)

/-- Set the entries that are set in a mask for the first lines. -/
def setEntries : List Bool → List Bool → List Bool
  | _, [] => []
  | [], hidden => hidden
  | entry :: entries, first :: hidden => (entry || first) :: setEntries entries hidden

/-- The loop of `mandatory_import_mask`: a mask with the rows of all imports. -/
def importRows : List SourceLine → List Bool
  | [] => []
  | line :: rest =>
    setEntries ((importAt line rest).getD []) (false :: importRows rest)

/-- Changed rows of a hunk, all of which are hidden. -/
def hunkIsHidden (rows : List (SourceLine × Bool)) (hunkId : Nat) : Bool :=
  let changed := rows.filter fun row => row.1.hunkId == some hunkId && row.1.isChanged
  !changed.isEmpty && changed.all (·.2)

/-- `has_structural_metadata`. -/
def hasStructuralMetadata (lines : List SourceLine) (fileId : Nat) : Bool :=
  lines.any fun line =>
    line.fileId == some fileId && line.hunkId.isNone &&
      ["old mode ", "new mode ", "deleted file mode ", "new file mode ", "similarity index ",
        "dissimilarity index ", "rename from ", "rename to ", "copy from ", "copy to ",
        "Binary files ", "GIT binary patch"].any fun start => (ascii start).isPrefixOf line.text

def SourceLine.isHunkHeader (line : SourceLine) : Bool := (ascii "@@ ").isPrefixOf line.text

/-- Hunk headers of a file, all of which are hidden, and nothing else to tell. -/
def fileIsHidden (rows : List (SourceLine × Bool)) (fileId : Nat) : Bool :=
  let hunks := rows.filter fun row => row.1.fileId == some fileId && row.1.isHunkHeader
  !hunks.isEmpty && hunks.all (·.2) && !hasStructuralMetadata (rows.map Prod.fst) fileId

/-- The first loop of `hide_import_only_sections`.  A hunk's lines belong to no other hunk, so
that the loop comes to the same in every order. -/
def hideHunks (lines : List SourceLine) (hidden : List Bool) : List Bool :=
  (lines.zip hidden).map fun row =>
    row.2 || row.1.hunkId.any (hunkIsHidden (lines.zip hidden))

/-- The second loop of `hide_import_only_sections`. -/
def hideFiles (lines : List SourceLine) (hidden : List Bool) : List Bool :=
  (lines.zip hidden).map fun row =>
    row.2 || row.1.fileId.any (fileIsHidden (lines.zip hidden))

/-- `hide_import_only_sections`. -/
def hideImportOnlySections (lines : List SourceLine) (hidden : List Bool) : List Bool :=
  hideFiles lines (hideHunks lines hidden)

/-- `mandatory_import_mask`. -/
def mandatoryImportMask (lines : List SourceLine) : List Bool :=
  hideImportOnlySections lines (importRows lines)

/-! ## Rows that only change their place

`reading_diff/moves.rs`: a body of at least twelve bytes that is removed once and added
once is an exact move.  Its two rows are hidden together or not at all: imports are made
so (`normalizeAutomaticMoveMask`), plans and merged chunks are checked.

The tables of the source are given by the rows they are filled from (`rowsOf`).  Loops over
them are in the order of the removed rows, where the source has any order; that only
matters for which of several errors is reported.
-/

/-- `trim_ascii`. -/
def trimAscii (value : Bytes) : Bytes :=
  ((value.dropWhile fun byte => isAsciiWhitespace byte.toNat).reverse.dropWhile
    fun byte => isAsciiWhitespace byte.toNat).reverse

/-- The body a row may be moved by, if it is long enough. -/
def moveBody (line : SourceLine) : Option Bytes :=
  let body := trimAscii (sourceBody line)
  if body.length < 12 then none else some body

/-- A row with a marker and a body to be moved by. -/
def SourceLine.hasMove (marker : UInt8) (body : Bytes) (line : SourceLine) : Bool :=
  line.marker == some marker && moveBody line == some body

/-- The rows of `removed` or of `added` under a body. -/
def rowsOf (lines : List SourceLine) (marker : UInt8) (body : Bytes) : List SourceLine :=
  lines.filter (SourceLine.hasMove marker body)

/-- The body is removed once and added once. -/
def isExactMove (lines : List SourceLine) (body : Bytes) : Bool :=
  (rowsOf lines '-'.toUInt8 body).length == 1 && (rowsOf lines '+'.toUInt8 body).length == 1

/-- The bodies of the removed rows. -/
def removedBodies (lines : List SourceLine) : List Bytes :=
  lines.filterMap fun line => if line.marker == some '-'.toUInt8 then moveBody line else none

/-- One of the rows of a move is hidden. -/
def moveIsHidden (rows : List (SourceLine × Bool)) (body : Bytes) : Bool :=
  rows.any fun row => row.2 && row.1.isChanged && moveBody row.1 == some body

/-- `normalize_automatic_move_mask`.  A row belongs to one body, so that the loop comes to the
same in every order. -/
def normalizeAutomaticMoveMask (lines : List SourceLine) (hidden : List Bool) : List Bool :=
  (lines.zip hidden).map fun row =>
    row.2 || (row.1.isChanged && (moveBody row.1).any fun body =>
      isExactMove lines body && moveIsHidden (lines.zip hidden) body)

/-- The mask before the plan. -/
def automaticMask (lines : List SourceLine) : List Bool :=
  hideImportOnlySections lines (normalizeAutomaticMoveMask lines (mandatoryImportMask lines))

/-- The positions of the rows of a move. -/
def positionsOf (lines : List SourceLine) (marker : UInt8) (body : Bytes) : List Nat :=
  lines.findIdxs (SourceLine.hasMove marker body)

/-- `validate_move_symmetry`. -/
def validateMoveSymmetry (lines : List SourceLine) (hidden : List Bool) : Except String Unit :=
  (removedBodies lines).forM fun body =>
    match positionsOf lines '-'.toUInt8 body, positionsOf lines '+'.toUInt8 body with
    | [old], [new] =>
      if hidden.getD old false != hidden.getD new false then
        .error (s!"Exact move rows {old + 1} and {new + 1} must be retained or elided " ++
          "symmetrically.")
      else .ok ()
    | _, _ => .ok ()

/-- The last entry of `automatic_removed` or of `automatic_added` under a body. -/
def automaticEntry (rows : List (SourceLine × Bool)) (marker : UInt8) (body : Bytes) : Option Bool :=
  ((rows.filter fun row => row.1.hasMove marker body).getLast?).map Prod.snd

/-- `validate_cross_chunk_move_retention`, for one row of the chunk. -/
def validateRetention (source : List (SourceLine × Bool)) (chunkLines : List SourceLine)
    (line : SourceLine) (hidden replaced : Bool) : Except String Unit :=
  let body := trimAscii (sourceBody line)
  if !line.isChanged then .ok ()
  else if !(isExactMove (source.map Prod.fst) body) then .ok ()
  else if replaced then .error "replace cannot abbreviate an exact move row."
  else if !hidden then .ok ()
  else if automaticEntry source '-'.toUInt8 body == some true &&
      automaticEntry source '+'.toUInt8 body == some true then .ok ()
  else
    let counterpart := if line.marker == some '-'.toUInt8 then '+'.toUInt8 else '-'.toUInt8
    if chunkLines.any fun candidate =>
        candidate.marker == some counterpart && trimAscii (sourceBody candidate) == body then .ok ()
    else .error "Exact move rows whose counterpart is in another chunk must be retained."

/-- `validate_cross_chunk_move_retention`; `replaced` has an entry for each row. -/
def validateCrossChunkMoveRetention (sourceDiff : Bytes) (chunkLines : List SourceLine)
    (hidden replaced : List Bool) : Except String Unit := do
  let sourceLines ← parse sourceDiff
  let sourceAutomatic := normalizeAutomaticMoveMask sourceLines (mandatoryImportMask sourceLines)
  (chunkLines.zip (hidden.zip replaced)).forM fun row =>
    validateRetention (sourceLines.zip sourceAutomatic) chunkLines row.1 row.2.1 row.2.2

/-- A line of the reading diff under a marker, with this body. -/
def isRetained (readingDiff : Bytes) (marker : UInt8) (body : Bytes) : Bool :=
  (readingDiff.splitOn 10).any fun line =>
    line.head? == some marker && trimAscii (line.drop 1) == body

/-- `validate_merged_move_symmetry`. -/
def validateMergedMoveSymmetry (source readingDiff : Bytes) : Except String Unit := do
  let sourceLines ← parse source
  (removedBodies sourceLines).forM fun body =>
    if !isExactMove sourceLines body then .ok ()
    else if isRetained readingDiff '-'.toUInt8 body != isRetained readingDiff '+'.toUInt8 body then
      .error "Exact move rows split across chunks must be retained or elided symmetrically."
    else .ok ()

/-! ## Plans -/

/-- `LineRange`: both ends belong to it. -/
structure LineRange where
  startLine : Nat
  endLine : Nat

/-- `LineReplacement`. -/
structure LineReplacement where
  line : Nat
  old : Text
  new : Text

/-- `Plan`. -/
structure Plan where
  version : Nat
  remove : List LineRange
  replace : List LineReplacement
  fold : List LineRange
  summary : Text

/-- `SCHEMA_VERSION`. -/
def schemaVersion : Nat := 1

/-- `Plan::parse`, behind the JSON. -/
def Plan.check (plan : Plan) : Except String Plan :=
  let summary := trim plan.summary
  if plan.version ≠ schemaVersion then
    .error (s!"Unsupported reading diff plan version {plan.version}; expected " ++
      s!"{schemaVersion}.")
  else if summary.isEmpty then .error "The reading diff summary is required."
  else if summary.contains '\r' || summary.contains '\n' || summary.length > 500 then
    .error "The reading diff summary must be one line of at most 500 characters."
  else .ok plan

/-- `Plan::parse`. -/
def Plan.parse (decode : Text → Except String Plan) (json : Text) : Except String Plan :=
  match decode json with
  | .error error => .error ("Invalid reading diff plan: " ++ error)
  | .ok plan => plan.check

/-- The line of a number. -/
def lineAt (lines : List SourceLine) (number : Nat) : SourceLine :=
  lines.getD (number - 1) (.unparsed [] [])

/-- The numbers of the lines of a range. -/
def LineRange.numbers (range : LineRange) : List Nat :=
  List.range' range.startLine (range.endLine + 1 - range.startLine)

/-! ## Ranges -/

/-- Whose a line is that is hidden. -/
inductive Owner where
  | automatic
  | remove
  | fold
deriving DecidableEq

def Owner.text : Owner → String
  | .automatic => "automatic import elision"
  | .remove => "remove"
  | .fold => "fold"

/-- `validate_range`. -/
def validateRange (lines : List SourceLine) (range : LineRange) (kind : Owner) (index : Nat) :
    Except String Unit :=
  if range.startLine = 0 ∨ range.endLine = 0 ∨ range.startLine > range.endLine ∨
      range.endLine > lines.length then
    .error (s!"{kind.text}[{index}] has an invalid inclusive range " ++
      s!"{range.startLine}-{range.endLine} for a {lines.length} line diff.")
  else
    range.numbers.forM fun number =>
      if (lineAt lines number).kind ≠ .hunkSource then
        .error s!"{kind.text}[{index}] cannot change structural diff line {number}."
      else .ok ()

/-- The two vectors that all passes write: what is hidden, and whose it is. -/
structure Claims where
  hidden : List Bool
  ownership : List (Option Owner)

/-- The claims before the plan. -/
def Claims.start (automatic : List Bool) : Claims :=
  ⟨automatic, automatic.map fun hidden => if hidden then some .automatic else none⟩

/-- The body of the loop of `claim_range`. -/
def claimLine (kind : Owner) (index : Nat) (allowAutomatic : Bool) (claims : Claims)
    (number : Nat) : Except String Claims :=
  match claims.ownership.getD (number - 1) none with
  | some owner =>
    if allowAutomatic && owner == .automatic then .ok claims
    else .error s!"{kind.text}[{index}] overlaps {owner.text} at line {number}."
  | none =>
    .ok ⟨claims.hidden.set (number - 1) true, claims.ownership.set (number - 1) (some kind)⟩

/-- `claim_range`. -/
def claimRange (kind : Owner) (index : Nat) (allowAutomatic : Bool) (claims : Claims)
    (range : LineRange) : Except String Claims :=
  range.numbers.foldlM (claimLine kind index allowAutomatic) claims

/-- `validate_fold`. -/
def validateFold (lines : List SourceLine) (range : LineRange) (index : Nat) : Except String Unit :=
  let first := lineAt lines range.startLine
  range.numbers.forM fun number =>
    let line := lineAt lines number
    if line.fileId ≠ first.fileId ∨ line.hunkId ≠ first.hunkId ∨ line.marker ≠ first.marker then
      .error (s!"fold[{index}] crosses a file, hunk, or diff marker boundary at line " ++
        s!"{number}.")
    else .ok ()

/-- The blanks a row is indented by. -/
def indentation (body : Bytes) : Bytes :=
  body.takeWhile fun byte => byte == ' '.toUInt8 || byte == 9

/-- `fold_line`. -/
def foldLine (line : SourceLine) : Bytes :=
  line.marker.getD ' '.toUInt8 :: (indentation (sourceBody line) ++ ascii "...")

/-! ## Python -/

def isPythonQuote (c : Char) : Bool := c == '\'' || c == '"'

/-- `python_code_before_comment`; in a string, its quote and whether it is a triple one. -/
def codeBeforeComment : Option (Char × Bool) → Text → Text
  | _, [] => []
  | some active, '\\' :: c :: rest => '\\' :: c :: codeBeforeComment (some active) rest
  | some (quote, true), a :: b :: c :: rest =>
    if a = quote ∧ b = quote ∧ c = quote then a :: b :: c :: codeBeforeComment none rest
    else a :: codeBeforeComment (some (quote, true)) (b :: c :: rest)
  | some (quote, true), a :: rest => a :: codeBeforeComment (some (quote, true)) rest
  | some (quote, false), a :: rest =>
    a :: codeBeforeComment (if a = quote then none else some (quote, false)) rest
  | none, a :: b :: c :: rest =>
    if a = '#' then []
    else if isPythonQuote a then
      if b = a ∧ c = a then a :: b :: c :: codeBeforeComment (some (a, true)) rest
      else a :: codeBeforeComment (some (a, false)) (b :: c :: rest)
    else a :: codeBeforeComment none (b :: c :: rest)
  | none, a :: rest =>
    if a = '#' then []
    else a :: codeBeforeComment (if isPythonQuote a then some (a, false) else none) rest

/-- How often a text stands in another, from left to right. -/
def countMatches (pattern text : Text) : Nat := (matchIndices pattern text).length

/-- The counters of `protect_python_structure`. -/
structure PythonCounts where
  balances : Balances
  singleTriples : Nat
  doubleTriples : Nat

def singleTriple : Text := ['\'', '\'', '\'']
def doubleTriple : Text := ['"', '"', '"']

/-- The difference of two counts of a character. -/
def surplus (body : Text) (opening closing : Char) : Int :=
  (body.count opening : Int) - body.count closing

/-- The body of the loop of `protect_python_structure`. -/
def protectPythonRow (lines : List SourceLine) (kind : Owner) (index : Nat)
    (counts : PythonCounts) (number : Nat) : Except String PythonCounts :=
  let line := lineAt lines number
  if !line.allows.importSyntax.pythonFrom then .ok counts
  else
    let body := bodyText line
    let trimmed := trimStart body
    if trimmed.head? == some '@' ||
        (trimEnd (codeBeforeComment none trimmed)).getLast? == some ':' then
      .error (s!"{kind.text}[{index}] hides a Python decorator or suite owner on line " ++
        s!"{number}.")
    else
      .ok ⟨⟨counts.balances.parentheses + surplus body '(' ')',
          counts.balances.brackets + surplus body '[' ']',
          counts.balances.braces + surplus body '\x7b' '\x7d'⟩,
        counts.singleTriples + countMatches singleTriple body,
        counts.doubleTriples + countMatches doubleTriple body⟩

/-- `protect_python_structure`. -/
def protectPythonStructure (lines : List SourceLine) (range : LineRange) (kind : Owner)
    (index : Nat) : Except String Unit := do
  let counts ← range.numbers.foldlM (protectPythonRow lines kind index) ⟨⟨0, 0, 0⟩, 0, 0⟩
  if counts.balances ≠ ⟨0, 0, 0⟩ ∨ counts.singleTriples % 2 ≠ 0 ∨ counts.doubleTriples % 2 ≠ 0 then
    .error s!"{kind.text}[{index}] crosses Python expression or string boundaries."
  else .ok ()

/-- `changes_python_boundaries`. -/
def changesPythonBoundaries (old new : Text) : Bool :=
  [['('], [')'], ['['], [']'], ['\x7b'], ['\x7d'], singleTriple, doubleTriple].any fun token =>
    countMatches token old != countMatches token new

/-! ## Replacements -/

def ellipsis : Text := ['.', '.', '.']

/-- The new text with every ellipsis written as three dots. -/
def normalizeEllipses (new : Text) : Text := new.flatMap fun c => if c = '…' then ellipsis else [c]

/-- The loop of `validate_projection` over the pieces. -/
def projectsFrom : List Text → Text → Bool
  | [], _ => true
  | piece :: pieces, old =>
    match find piece old with
    | none => false
    | some relative => projectsFrom pieces (old.drop (relative + piece.length))

/-- `validate_projection`. -/
def validateProjection (old new : Text) (index : Nat) : Except String Unit :=
  if old.isEmpty || byteLength old > 4096 || byteLength new ≥ byteLength old then
    .error s!"replace[{index}] must shorten a non-empty source span of at most 4096 bytes."
  else if (find ellipsis (normalizeEllipses new)).isNone then
    .error s!"replace[{index}] must include an ellipsis placeholder."
  else if projectsFrom
      ((splitPattern ellipsis (normalizeEllipses new)).filter fun piece => !piece.isEmpty) old then
    .ok ()
  else .error s!"replace[{index}] invents or reorders text not projected from the source."

/-- The row with the text at a position replaced. -/
def renderReplacement (line : SourceLine) (body : Text) (position : Nat)
    (replacement : LineReplacement) : Bytes :=
  line.marker.getD ' '.toUInt8 :: (encodeUtf8 (body.take position) ++ encodeUtf8 replacement.new ++
    encodeUtf8 (body.drop (position + replacement.old.length)))

/-- The body of the loop of `validate_replacements`; the map is a list with the last entry
first. -/
def validateReplacement (lines : List SourceLine) (hidden : List Bool)
    (result : List (Nat × Bytes)) (replacement : LineReplacement) (index : Nat) :
    Except String (List (Nat × Bytes)) :=
  let line := lineAt lines replacement.line
  if replacement.line = 0 ∨ replacement.line > lines.length then
    .error s!"replace[{index}] line {replacement.line} is outside the diff."
  else if line.kind ≠ .hunkSource then
    .error s!"replace[{index}] cannot change structural diff line {replacement.line}."
  else if hidden.getD (replacement.line - 1) false then
    .error s!"replace[{index}] targets hidden line {replacement.line}."
  else if (result.lookup (replacement.line - 1)).isSome then
    .error (s!"replace[{index}] overlaps an earlier replacement on line " ++
      s!"{replacement.line}.")
  else do
    validateProjection replacement.old replacement.new index
    match decodeUtf8 (sourceBody line) with
    | none =>
      .error s!"replace[{index}] cannot address non-UTF-8 source line {replacement.line}."
    | some body =>
      match matchIndices replacement.old body with
      | [position] =>
        if line.allows.importSyntax.pythonFrom &&
            changesPythonBoundaries replacement.old replacement.new then
          .error (s!"replace[{index}] changes Python structural delimiters on line " ++
            s!"{replacement.line}.")
        else
          .ok ((replacement.line - 1, renderReplacement line body position replacement) :: result)
      | _ =>
        .error s!"replace[{index}] old text must occur exactly once on line {replacement.line}."

/-- `validate_replacements`. -/
def validateReplacements (lines : List SourceLine) (hidden : List Bool)
    (replacements : List LineReplacement) : Except String (List (Nat × Bytes)) :=
  replacements.zipIdx.foldlM
    (fun result entry => validateReplacement lines hidden result entry.1 entry.2) []

/-! ## The compiler -/

/-- `hide_owned_no_newline_markers`, behind a line. -/
def hideOwnedFrom : Bool → List SourceLine → List Bool → List Bool
  | previous, line :: lines, here :: hidden =>
    (here || (line.kind == .noNewline && previous)) ::
      hideOwnedFrom (here || (line.kind == .noNewline && previous)) lines hidden
  | _, _, _ => []

/-- `hide_owned_no_newline_markers`. -/
def hideOwnedNoNewlineMarkers (lines : List SourceLine) (hidden : List Bool) : List Bool :=
  hideOwnedFrom false lines hidden

/-- One range of `plan.remove`. -/
def applyRemove (lines : List SourceLine) (claims : Claims) (range : LineRange) (index : Nat) :
    Except String Claims := do
  validateRange lines range .remove index
  protectPythonStructure lines range .remove index
  claimRange .remove index true claims range

/-- One range of `plan.fold`, with the lines that are shown for the ranges before. -/
def applyFold (lines : List SourceLine) (state : Claims × List (Nat × Bytes)) (range : LineRange)
    (index : Nat) : Except String (Claims × List (Nat × Bytes)) := do
  validateRange lines range .fold index
  if range.startLine = range.endLine then
    .error s!"fold[{index}] must contain at least two source rows."
  else do
    validateFold lines range index
    protectPythonStructure lines range .fold index
    let claims ← claimRange .fold index false state.1 range
    .ok (claims, (range.startLine - 1, foldLine (lineAt lines range.startLine)) :: state.2)

/-- What is written for a line. -/
def renderLine (line : SourceLine) (folded : Option Bytes) (hidden : Bool)
    (replacement : Option Bytes) : Bytes :=
  match folded with
  | some fold => fold ++ line.eol
  | none => if hidden then [] else replacement.getD line.text ++ line.eol

/-- `u32::MAX`, where the counters stay. -/
def maxCount : Nat := 2 ^ 32 - 1

/-- `CompileResult`. -/
structure CompileResult where
  readingDiff : Bytes
  summary : Text
  changedLines : Nat
  retainedChangedLines : Nat

/-- The last loop of `compile_with_source`. -/
def render (lines : List SourceLine) (folded : List (Nat × Bytes)) (hidden : List Bool)
    (replacements : List (Nat × Bytes)) (summary : Text) : CompileResult :=
  let rows := (lines.zip hidden).zipIdx
  { readingDiff := rows.flatMap fun row =>
      renderLine row.1.1 (folded.lookup row.2) row.1.2 (replacements.lookup row.2)
    summary := trim summary
    changedLines := min maxCount (lines.countP SourceLine.isChanged)
    retainedChangedLines := min maxCount (rows.countP fun row =>
      row.1.1.isChanged && ((folded.lookup row.2).isSome || !row.1.2)) }

/-- `compile_with_source`, for a plan that has been read. -/
def compilePlanned (raw sourceDiff : Bytes) (plan : Plan) : Except String CompileResult := do
  let lines ← parse raw
  if lines.isEmpty then .error "The diff is empty."
  else do
    let claims ← plan.remove.zipIdx.foldlM
      (fun claims entry => applyRemove lines claims entry.1 entry.2)
      (Claims.start (automaticMask lines))
    let (claims, folded) ← plan.fold.zipIdx.foldlM
      (fun state entry => applyFold lines state entry.1 entry.2) (claims, [])
    let replacements ← validateReplacements lines claims.hidden plan.replace
    validateMoveSymmetry lines claims.hidden
    validateCrossChunkMoveRetention sourceDiff lines claims.hidden
      ((List.range lines.length).map fun index => (replacements.lookup index).isSome)
    .ok (render lines folded (hideOwnedNoNewlineMarkers lines claims.hidden) replacements
      plan.summary)

/-- `compile_with_source`. -/
def compileWithSource (decode : Text → Except String Plan) (raw sourceDiff : Bytes)
    (planJson : Text) : Except String CompileResult := do
  let plan ← Plan.parse decode planJson
  compilePlanned raw sourceDiff plan

/-- `compile`. -/
def compile (decode : Text → Except String Plan) (raw : Bytes) (planJson : Text) :
    Except String CompileResult :=
  compileWithSource decode raw raw planJson

end Alera.ReadingDiff
