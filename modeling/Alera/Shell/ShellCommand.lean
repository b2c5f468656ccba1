/-
# Alera.Shell.ShellCommand -- the command lines handed to cmd.exe and to a POSIX shell

`rust/alera-core/src/shell_command.rs`, the Windows half.  Every token is put in
double quotes with its own double quotes escaped by a backslash, and the whole
line is put in the pair of quotes that `/s` strips.

The started program reads a token back unless a backslash stands in front of one
of its double quotes or at its end (`Quotable`).  The shell knows nothing of the
backslash, so each double quote of a token turns its quoted state around, and an
operator behind an odd number of them is one (`Shielded`).  The two conditions
are exact: `runsExactly_iff`.
-/
import Alera.Theory.WindowsCommandLine
import Alera.Theory.Lists

namespace Alera.Shell

open Theory.WindowsCommandLine List

set_option autoImplicit false

/-! ## Building the line -/

/-- `ShellInvocation`. -/
inductive ShellInvocation where
  | posix (program : Line) (arguments : List Line)
  | windows (program : Line) (rawArguments : Line)
  deriving DecidableEq, Repr

/-- `value.replace('"', "\\\"")`. -/
def escapeQuotes : Line → Line
  | [] => []
  | c :: rest => if c = '"' then '\\' :: '"' :: escapeQuotes rest else c :: escapeQuotes rest

/-- `double_quoted`. -/
def doubleQuoted (value : Line) : Line := '"' :: (escapeQuotes value ++ ['"'])

/-- The loop over the arguments. -/
def commandLine (executable : Line) (arguments : List Line) : Line :=
  arguments.foldl (fun line argument => line ++ ' ' :: doubleQuoted argument)
    (doubleQuoted executable)

/-- `windows_shell_invocation`. -/
def windowsShellInvocation (executable : Line) (arguments : List Line) : ShellInvocation :=
  .windows "cmd.exe".toList
    ("/d /s /c \"".toList ++ commandLine executable arguments ++ ['"'])

/-! ## Running it -/

/-- `/s` strips the outer pair of double quotes. -/
def stripOuterQuotes : Line → Option Line
  | '"' :: rest => if rest.getLast? = some '"' then some rest.dropLast else none
  | _ => none

def switches : Line := "/d /s /c ".toList

/-- The argument vector of the one command an invocation runs, if it runs exactly one
without redirections. -/
def run : ShellInvocation → Option (List Line)
  | .posix _ _ => none
  | .windows program raw =>
    if program = "cmd.exe".toList ∧ raw.take switches.length = switches then
      ((stripOuterQuotes (raw.drop switches.length)).bind (commandText .plain)).map argv
    else none

theorem stripOuterQuotes_quoted (line : Line) :
    stripOuterQuotes ('"' :: (line ++ ['"'])) = some line := by
  simp [stripOuterQuotes]

theorem run_windows (executable : Line) (arguments : List Line) :
    run (windowsShellInvocation executable arguments) =
      (commandText .plain (commandLine executable arguments)).map argv := by
  have raw : "/d /s /c \"".toList ++ commandLine executable arguments ++ ['"'] =
      switches ++ '"' :: (commandLine executable arguments ++ ['"']) := by
    rfl
  rw [windowsShellInvocation, run, raw, if_pos ⟨rfl, List.take_left⟩, List.drop_left,
    stripOuterQuotes_quoted, Option.bind_some]

/-- The line, token by token. -/
theorem commandLine_cons (executable argument : Line) (arguments : List Line) :
    commandLine executable (argument :: arguments) =
      doubleQuoted executable ++ ' ' :: commandLine argument arguments := by
  have grows : ∀ (arguments : List Line) (front line : Line),
      arguments.foldl (fun line argument => line ++ ' ' :: doubleQuoted argument) (front ++ line) =
        front ++ arguments.foldl (fun line argument => line ++ ' ' :: doubleQuoted argument) line := by
    intro arguments
    induction arguments with
    | nil => exact fun _ _ => rfl
    | cons argument arguments ih =>
      intro front line
      rw [List.foldl_cons, List.foldl_cons, List.append_assoc, ih]
  rw [commandLine, List.foldl_cons, grows, ← List.singleton_append (x := ' '), grows]
  rfl

/-! ## What the shell reads -/

attribute [local simp] escapeQuotes doubleQuoted reading Shielded

variable (quoted : Bool) (value : Line)

theorem after_escapeQuotes :
    after quoted (escapeQuotes value) = after quoted value := by
  induction value generalizing quoted with
  | nil => rfl
  | cons c value ih =>
    by_cases quote : c = '"'
    · simp [quote, ih]
    · simp [quote, ih]

theorem shielded_escapeQuotes :
    Shielded quoted (escapeQuotes value) ↔ Shielded quoted value := by
  induction value generalizing quoted with
  | nil => rfl
  | cons c value ih =>
    by_cases quote : c = '"'
    · have slash : ¬ IsOperator '\\' := by decide
      simp [quote, slash, ih]
    · simp [quote, ih]

theorem after_doubleQuoted :
    after quoted (doubleQuoted value) = after quoted value := by
  simp [after_append, after_escapeQuotes, after_not]

theorem shielded_doubleQuoted :
    Shielded quoted (doubleQuoted value) ↔ Shielded (!quoted) value := by
  simp [shielded_append, shielded_escapeQuotes]

/-- The quotes around the tokens put all of them in the quoted state, and only the quotes
in them turn it around. -/
theorem shielded_commandLine (executable : Line) (arguments : List Line) :
    Shielded quoted (commandLine executable arguments) ↔
      Shielded (!quoted) (executable :: arguments).flatten := by
  induction arguments generalizing quoted executable with
  | nil =>
    rw [show commandLine executable [] = doubleQuoted executable from rfl, shielded_doubleQuoted]
    simp
  | cons argument arguments ih =>
    have space : ¬ IsOperator ' ' := by decide
    show _ ↔ Shielded (!quoted) (executable ++ (argument :: arguments).flatten)
    rw [commandLine_cons, shielded_append, shielded_doubleQuoted, after_doubleQuoted,
      shielded_cons_of_ne (by decide), ih, shielded_append (!quoted) executable, after_not]
    exact and_congr_right fun _ => and_iff_right fun operator => absurd operator space

/-! ## What the started program reads -/

/-- No backslash in front of a double quote or at the end; `slash` tells whether a backslash
was read last. -/
def quotable : Bool → Line → Bool
  | slash, [] => !slash
  | slash, c :: rest =>
    if c = '\\' then quotable true rest
    else if c = '"' then !slash && quotable false rest
    else quotable false rest

/-- A backslash stands neither in front of a double quote nor at the end. -/
def Quotable (value : Line) : Prop := ¬ ['\\', '"'] <:+: value ∧ ¬ ['\\'] <:+ value

/-- A quotable token comes out of its quotes as it went in. -/
theorem arguments_doubleQuoted {value : Line} (quotes : quotable false value = true) (rest : Line) :
    arguments false 0 none (doubleQuoted value ++ rest) = arguments false 0 (some value) rest := by
  have inside : ∀ (value read : Line) (slashes : Nat),
      quotable (decide (slashes ≠ 0)) value = true →
      arguments true slashes (some read) (escapeQuotes value ++ '"' :: rest) =
        arguments false 0 (some (read ++ List.replicate slashes '\\' ++ value)) rest := by
    intro value
    induction value with
    | nil =>
      intro read slashes quotes
      obtain rfl : slashes = 0 := by simpa [quotable] using quotes
      simp
    | cons c value ih =>
      intro read slashes quotes
      by_cases slash : c = '\\'
      · have later : quotable (decide (slashes + 1 ≠ 0)) value = true := by
          simpa [quotable, slash] using quotes
        have read' := ih read (slashes + 1) later
        simp [slash, read', replicate_succ']
      by_cases quote : c = '"'
      · obtain ⟨rfl, later⟩ : slashes = 0 ∧ quotable false value = true := by
          simpa [quotable, quote] using quotes
        have read' := ih (read ++ ['"']) 0 later
        simp [quote, read']
      · have later : quotable (decide (0 ≠ 0)) value = true := by
          simpa [quotable, slash, quote] using quotes
        have read' := ih (read ++ List.replicate slashes '\\' ++ [c]) 0 later
        rw [escapeQuotes, if_neg quote, cons_append, arguments_quoted _ _ _ slash quote]
        simpa using read'
  have whole := inside value [] 0 quotes
  simpa using whole

theorem argv_commandLine {executable : Line} {arguments : List Line}
    (quotes : ∀ token ∈ executable :: arguments, quotable false token = true) :
    argv (commandLine executable arguments) = executable :: arguments := by
  induction arguments generalizing executable with
  | nil =>
    have whole := arguments_doubleQuoted (quotes executable (.head _)) []
    rw [append_nil] at whole
    exact whole
  | cons argument arguments ih =>
    rw [commandLine_cons, argv, arguments_doubleQuoted (quotes executable (.head _))]
    exact congrArg (executable :: ·) (ih fun token member => quotes token (.tail _ member))

/-! ### The weight a token loses -/

/-- A backslash counts twice, a double quote once. -/
def escapeWeight (c : Char) : Nat := if c = '\\' then 2 else if c = '"' then 1 else 0

def caretWeight (c : Char) : Nat := if c = '^' then 1 else 0

theorem total_caretWeight (text : Line) : total caretWeight text = text.count '^' := by
  induction text with
  | nil => rfl
  | cons c text ih =>
    rw [total_cons, ih, Nat.add_comm]
    by_cases caret : c = '^' <;> simp [caretWeight, caret]

/-- A token keeps its weight exactly if it is quotable: the backslashes in front of a double
quote lose half of theirs. -/
theorem reading_doubleQuoted (value rest : Line) :
    reading escapeWeight 0 (doubleQuoted value ++ rest) ≤
        total escapeWeight value + reading escapeWeight 0 rest ∧
      (reading escapeWeight 0 (doubleQuoted value ++ rest) =
        total escapeWeight value + reading escapeWeight 0 rest → quotable false value = true) := by
  have inside : ∀ (value : Line) (slashes : Nat),
      reading escapeWeight slashes (escapeQuotes value ++ '"' :: rest) ≤
          2 * slashes + total escapeWeight value + reading escapeWeight 0 rest ∧
        (reading escapeWeight slashes (escapeQuotes value ++ '"' :: rest) =
          2 * slashes + total escapeWeight value + reading escapeWeight 0 rest →
          quotable (decide (slashes ≠ 0)) value = true) := by
    intro value
    induction value with
    | nil =>
      intro slashes
      have read : reading escapeWeight slashes (escapeQuotes [] ++ '"' :: rest) =
          slashes + reading escapeWeight 0 rest := by simp [escapeWeight]
      refine ⟨by omega, fun same => ?_⟩
      have none' : slashes = 0 := by omega
      simp [quotable, none']
    | cons c value ih =>
      intro slashes
      by_cases slash : c = '\\'
      · obtain ⟨bound, exact'⟩ := ih (slashes + 1)
        have read : reading escapeWeight slashes (escapeQuotes (c :: value) ++ '"' :: rest) =
            reading escapeWeight (slashes + 1) (escapeQuotes value ++ '"' :: rest) := by
          simp [slash]
        have weight : total escapeWeight (c :: value) = 2 + total escapeWeight value := by
          simp [slash, escapeWeight]
        refine ⟨by omega, fun same => ?_⟩
        have later := exact' (by omega)
        simpa [quotable, slash] using later
      by_cases quote : c = '"'
      · obtain ⟨bound, exact'⟩ := ih 0
        have read : reading escapeWeight slashes (escapeQuotes (c :: value) ++ '"' :: rest) =
            slashes + 1 + reading escapeWeight 0 (escapeQuotes value ++ '"' :: rest) := by
          simp [quote, escapeWeight]
        have weight : total escapeWeight (c :: value) = 1 + total escapeWeight value := by
          simp [quote, escapeWeight]
        refine ⟨by omega, fun same => ?_⟩
        have none' : slashes = 0 := by omega
        have later := exact' (by omega)
        simpa [quotable, quote, none'] using later
      · obtain ⟨bound, exact'⟩ := ih 0
        have read : reading escapeWeight slashes (escapeQuotes (c :: value) ++ '"' :: rest) =
            2 * slashes + reading escapeWeight 0 (escapeQuotes value ++ '"' :: rest) := by
          simp [slash, quote, escapeWeight, Nat.mul_comm]
        have weight : total escapeWeight (c :: value) = total escapeWeight value := by
          simp [slash, quote, escapeWeight]
        refine ⟨by omega, fun same => ?_⟩
        have later := exact' (by omega)
        simpa [quotable, slash, quote] using later
  have start : reading escapeWeight 0 (doubleQuoted value ++ rest) =
      reading escapeWeight 0 (escapeQuotes value ++ '"' :: rest) := by
    simp
  simpa using inside value 0

theorem reading_commandLine (executable : Line) (arguments : List Line) :
    reading escapeWeight 0 (commandLine executable arguments) ≤
        total escapeWeight (executable :: arguments).flatten ∧
      (reading escapeWeight 0 (commandLine executable arguments) =
          total escapeWeight (executable :: arguments).flatten →
        ∀ token ∈ executable :: arguments, quotable false token = true) := by
  induction arguments generalizing executable with
  | nil =>
    obtain ⟨bound, exact'⟩ := reading_doubleQuoted executable []
    rw [reading, Nat.zero_mul, append_nil] at bound exact'
    rw [flatten_cons, flatten_nil, append_nil]
    refine ⟨bound, fun same token member => ?_⟩
    rw [mem_singleton.mp member]
    exact exact' same
  | cons argument arguments ih =>
    obtain ⟨boundLater, exactLater⟩ := ih argument
    obtain ⟨bound, exact'⟩ := reading_doubleQuoted executable (' ' :: commandLine argument arguments)
    have space : reading escapeWeight 0 (' ' :: commandLine argument arguments) =
        reading escapeWeight 0 (commandLine argument arguments) := by
      rw [reading, if_neg (by decide), if_neg (by decide), if_pos (.inl rfl), Nat.zero_mul,
        Nat.zero_add]
    rw [commandLine_cons, flatten_cons, total_append]
    refine ⟨by omega, fun same token member => ?_⟩
    rcases mem_cons.mp member with rfl | later
    · exact exact' (by omega)
    · exact exactLater (by omega) token later

theorem caret_commandLine (executable : Line) (arguments : List Line) :
    (commandLine executable arguments).count '^' = (executable :: arguments).flatten.count '^' := by
  have escaped : ∀ value : Line, (escapeQuotes value).count '^' = value.count '^' := by
    intro value
    induction value with
    | nil => rfl
    | cons c value ih =>
      by_cases quote : c = '"'
      · simp [quote, ih]
      · simp [quote, ih, List.count_cons]
  induction arguments generalizing executable with
  | nil => simp [commandLine, escaped]
  | cons argument arguments ih =>
    rw [commandLine_cons, List.count_append,
      List.count_cons_of_ne (by decide), ih]
    simp [escaped]

/-! ### The condition on a token -/

theorem quotable_cons (c : Char) (rest : Line) :
    Quotable (c :: rest) ↔ (c = '\\' → rest ≠ [] ∧ rest.head? ≠ some '"') ∧ Quotable rest := by
  simp only [Quotable, infix_cons_iff, suffix_cons_iff, not_or]
  constructor
  · rintro ⟨⟨notStart, notInside⟩, notWhole, notEnd⟩
    refine ⟨?_, notInside, notEnd⟩
    rintro rfl
    refine ⟨fun empty => notWhole (by rw [empty]), fun next => notStart ?_⟩
    obtain ⟨tail, rfl⟩ := head?_eq_some_iff.mp next
    exact ⟨tail, rfl⟩
  · rintro ⟨next, notInside, notEnd⟩
    refine ⟨⟨?_, notInside⟩, ?_, notEnd⟩
    · rintro ⟨tail, same⟩
      cases same
      exact (next rfl).2 rfl
    · intro same
      cases same
      exact (next rfl).1 rfl

theorem quotable_iff (slash : Bool) (value : Line) :
    quotable slash value = true ↔
      (slash = true → value ≠ [] ∧ value.head? ≠ some '"') ∧ Quotable value := by
  induction value generalizing slash with
  | nil =>
    have empty : Quotable [] := ⟨by simp, by simp⟩
    cases slash <;> simp [quotable, empty]
  | cons c rest ih =>
    rw [quotable_cons, quotable]
    by_cases isSlash : c = '\\'
    · rw [if_pos isSlash, ih]
      simp [isSlash]
    by_cases isQuote : c = '"'
    · rw [if_neg isSlash, if_pos isQuote, Bool.and_eq_true, ih]
      simp [isQuote]
    · rw [if_neg isSlash, if_neg isQuote, ih]
      simp [isSlash, isQuote]

/-! ## The invocation as a whole -/

/-- Every operator in the tokens stands behind an even number of double quotes, counted from
the start of the executable over all tokens. -/
def OperatorsShielded (tokens : List Line) : Prop :=
  ∀ u c v, tokens.flatten = u ++ c :: v → IsOperator c → u.count '"' % 2 = 0

/-- **When the shell runs exactly the requested command**: the line built for an executable
and its arguments makes `cmd.exe` run one command without redirections, with exactly these
as its argument vector, if and only if no token has a backslash in front of a double quote
or at its end and every operator is shielded. -/
theorem runsExactly_iff (executable : Line) (arguments : List Line) :
    run (windowsShellInvocation executable arguments) = some (executable :: arguments) ↔
      (∀ token ∈ executable :: arguments, Quotable token) ∧
        OperatorsShielded (executable :: arguments) := by
  have shields : Shielded false (commandLine executable arguments) ↔
      OperatorsShielded (executable :: arguments) :=
    (shielded_commandLine false executable arguments).trans (shielded_true_iff _)
  have quotes : (∀ token ∈ executable :: arguments, quotable false token = true) ↔
      ∀ token ∈ executable :: arguments, Quotable token :=
    forall₂_congr fun token _ => by simp [quotable_iff]
  rw [run_windows, ← shields, ← quotes]
  constructor
  · intro runs
    obtain ⟨command, reads, vector⟩ := Option.map_eq_some_iff.mp runs
    -- No caret was lost on the way, so the command is the line.
    have carets : command.count '^' = (commandLine executable arguments).count '^' := by
      have weighed := total_argv (μ := caretWeight) (by decide) (by decide) (by decide) command
      rw [vector, reading_of_weightless (by decide) (by decide) (by decide) (by decide),
        total_caretWeight, total_caretWeight] at weighed
      rw [caret_commandLine, weighed]
    have shielded : Shielded false (commandLine executable arguments) := by
      by_contra exposed
      have lost := caret_lt_of_not_shielded exposed reads
      omega
    have whole : command = commandLine executable arguments := by
      have same := commandText_of_shielded shielded
      rw [shellState, reads] at same
      exact Option.some.inj same
    refine ⟨(reading_commandLine executable arguments).2 ?_, shielded⟩
    have weighed := total_argv (μ := escapeWeight) (by decide) (by decide) (by decide) command
    rw [vector, whole] at weighed
    exact weighed.symm
  · rintro ⟨tokens, shielded⟩
    have reads := commandText_of_shielded shielded
    rw [shellState] at reads
    rw [reads, Option.map_some, argv_commandLine tokens]

/-- A title with an inch mark and an ampersand makes a second command, and a directory with
a backslash at its end takes in the quote behind it and the next argument. -/
theorem run_not_requested :
    run (windowsShellInvocation "gh".toList ["--title".toList, "5\" & calc".toList]) ≠
        some ["gh".toList, "--title".toList, "5\" & calc".toList] ∧
      run (windowsShellInvocation "git".toList ["-C".toList, "C:\\repo\\".toList, "status".toList]) =
        some ["git".toList, "-C".toList, "C:\\repo\" status".toList] ∧
      run (windowsShellInvocation "git".toList ["-C".toList, "C:\\repo\\".toList, "status".toList]) ≠
        some ["git".toList, "-C".toList, "C:\\repo\\".toList, "status".toList] := by
  decide

/-! ## Launch lines read by a POSIX shell

The other half of `shell_command.rs`, and `managed_launch_shell_rendering.rs`, which writes
the line of a managed launch into the user's own shell.  Every token is put in single
quotes, and a single quote of its own between double quotes.

`words` reads a line as the shell does as long as nothing in it makes the shell do more
than that.  Both lines are read back as the tokens they were made of.
-/

/-! ## The lines -/

def apostrophe : Char := '\x27'

/-- A token between two quotes, with `escaped` for every quote in it. -/
def quotedBy (quote : Char) (escaped : String) (value : Line) : Line :=
  quote :: (value.flatMap fun c => if c = quote then escaped.toList else [c]) ++ [quote]

/-- `single_quoted`. -/
def singleQuoted (value : Line) : Line := quotedBy apostrophe "'\"'\"'" value

/-- `posix_shell_invocation`. -/
def posixShellInvocation (executable : Line) (arguments : List Line) : ShellInvocation :=
  .posix "/bin/sh".toList ["-c".toList,
    arguments.foldl (fun line argument => line ++ ' ' :: singleQuoted argument)
      (singleQuoted executable)]

/-- `ShellFamily`. -/
inductive ShellFamily where
  | posix
  | powerShell
  | cmd
  deriving DecidableEq

/-- `shell_family`. -/
def shellFamily (shell : Line) : ShellFamily :=
  let normalized := (shell.map fun c => if c = '\\' then '/' else c).map Char.toLower
  let executable := String.ofList (normalized.reverse.takeWhile (· ≠ '/')).reverse
  if executable ∈ ["powershell", "powershell.exe", "pwsh", "pwsh.exe"] then .powerShell
  else if executable ∈ ["cmd", "cmd.exe"] then .cmd
  else .posix

/-- `quote_argument`. -/
def quoteArgument (family : ShellFamily) (value : Line) : Line :=
  match family with
  | .posix => quotedBy apostrophe "'\"'\"'" value
  | .powerShell => quotedBy apostrophe "''" value
  | .cmd => quotedBy '"' "\"\"" value

/-- `render_managed_launch`. -/
def renderManagedLaunch (executable : Line) (arguments : List Line) (shell : Line) : Line :=
  let family := shellFamily shell
  let line := List.intercalate [' '] ((executable :: arguments).map (quoteArgument family))
  if family = .powerShell then "& ".toList ++ line else line

/-! ## The shell -/

inductive Quoting where
  | unquoted
  | single
  | double

/-- What is an operator, an expansion, a pattern, a comment or an escape outside quotes. -/
def special : List Char := "|&;<>()$`\\*?[]#~=%!\x7b\x7d\n".toList

/-- The words of a line in which everything else is literal, behind the one that has begun. -/
def words : Quoting → Option Line → Line → Option (List Line)
  | .unquoted, word, [] => some word.toList
  | _, _, [] => none
  | .unquoted, word, c :: rest =>
    if c = ' ' ∨ c = '\t' then (words .unquoted none rest).map (word.toList ++ ·)
    else if c = apostrophe then words .single (some (word.getD [])) rest
    else if c = '"' then words .double (some (word.getD [])) rest
    else if c ∈ special then none
    else words .unquoted (some (word.getD [] ++ [c])) rest
  | .single, word, c :: rest =>
    if c = apostrophe then words .unquoted word rest
    else words .single (some (word.getD [] ++ [c])) rest
  | .double, word, c :: rest =>
    if c = '"' then words .unquoted word rest
    else if c ∈ ['$', '\x60', '\\'] then none
    else words .double (some (word.getD [] ++ [c])) rest

/-- A quoted token is one word, whatever is in it. -/
theorem words_singleQuoted (value rest : Line) :
    words .unquoted none (singleQuoted value ++ rest) = words .unquoted (some value) rest := by
  have inside : ∀ read : Line, words .single (some read)
      ((value.flatMap fun c => if c = apostrophe then "'\"'\"'".toList else [c]) ++
        apostrophe :: rest) = words .unquoted (some (read ++ value)) rest := by
    induction value with
    | nil => simp [words]
    | cons c value ih =>
      intro read
      by_cases quote : c = apostrophe
      · -- The quotes are closed, the apostrophe is read between double quotes, and they open again.
        have spliced := ih (read ++ [apostrophe])
        simpa [quote, words, apostrophe] using spliced
      · simpa [quote, words] using ih (read ++ [c])
  simpa [singleQuoted, quotedBy, words, apostrophe] using inside []

theorem words_behind (word : Line) (arguments : List Line) :
    words .unquoted (some word) (arguments.flatMap fun argument => ' ' :: singleQuoted argument) =
      some (word :: arguments) := by
  induction arguments generalizing word with
  | nil => rfl
  | cons argument arguments ih =>
    rw [flatMap_cons, cons_append, words, words_singleQuoted, ih]
    rfl

/-- **A POSIX shell reads launch lines back verbatim**: the line for `sh -c` and, for every shell
of the family, the line of a managed launch. -/
theorem posix_lines_verbatim (executable : Line) (arguments : List Line) :
    (∃ line, posixShellInvocation executable arguments =
        .posix "/bin/sh".toList ["-c".toList, line] ∧
      words .unquoted none line = some (executable :: arguments)) ∧
    ∀ shell, shellFamily shell = .posix →
      words .unquoted none (renderManagedLaunch executable arguments shell) =
        some (executable :: arguments) := by
  have line : words .unquoted none (singleQuoted executable ++
      arguments.flatMap fun argument => ' ' :: singleQuoted argument) =
        some (executable :: arguments) := by
    rw [words_singleQuoted, words_behind]
  refine ⟨⟨_, rfl, ?_⟩, fun shell family => ?_⟩
  · rw [foldl_append_eq_append]
    exact line
  · rw [renderManagedLaunch, family, map_cons, Theory.intercalate_cons,
      flatMap_map]
    exact line

theorem posix_lines_verbatim_prompt :
    shellFamily "/usr/bin/zsh".toList = .posix ∧
      words .unquoted none (renderManagedLaunch "claude".toList ["it's $HOME;\n".toList]
        "/usr/bin/zsh".toList) = some ["claude".toList, "it's $HOME;\n".toList] :=
  ⟨by decide, (posix_lines_verbatim "claude".toList ["it's $HOME;\n".toList]).2 _ (by decide)⟩

end Alera.Shell
