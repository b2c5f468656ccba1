/-
# Alera.Theory.WindowsCommandLine -- two readers of one command line

A line that goes through `cmd.exe /s /c` is read twice.  The shell toggles its
quoted state at every double quote and takes `& | < > ^` outside it as operators
(`commandText`); to it a backslash is a character like any other.  The program
that is started splits what is left into arguments (`arguments`), and there a
backslash in front of a double quote escapes it.

`commandText` answers the text of the command when the line is one command
without redirections.  It is the line itself exactly when the quoted state
shields every operator (`Shielded`); otherwise the shell ate a caret, which no
argument gets back (`caret_lt_of_not_shielded`).  What the arguments amount to is
read off the line by weighing it (`total_arguments`): behind a run of backslashes
a double quote halves the weight of the run, whatever the quoted state.
-/
import Mathlib.Data.List.Basic
import Mathlib.Data.List.Count
import Mathlib.Tactic.Ring

namespace Alera.Theory.WindowsCommandLine

set_option autoImplicit false

abbrev Line := List Char

/-! ## The shell -/

/-- The characters that are operators outside the quoted state. -/
def IsOperator (c : Char) : Prop := c = '&' ∨ c = '|' ∨ c = '<' ∨ c = '>' ∨ c = '^'

instance (c : Char) : Decidable (IsOperator c) := inferInstanceAs (Decidable (_ ∨ _))

/-- The shell's state between two characters; `escaped` is behind a caret. -/
inductive ShellState where
  | plain
  | quoted
  | escaped
  deriving DecidableEq, Repr

/-- The text of the command, if the line is a single command without redirections. -/
def commandText : ShellState → Line → Option Line
  | _, [] => some []
  | .escaped, c :: rest =>
    (commandText (if c = '"' then .quoted else .plain) rest).map (c :: ·)
  | .quoted, c :: rest =>
    (commandText (if c = '"' then .plain else .quoted) rest).map (c :: ·)
  | .plain, c :: rest =>
    if c = '"' then (commandText .quoted rest).map (c :: ·)
    else if c = '^' then commandText .escaped rest
    else if IsOperator c then none
    else (commandText .plain rest).map (c :: ·)

/-- Outside (`false`) or inside (`true`) the quoted state. -/
def shellState : Bool → ShellState
  | false => .plain
  | true => .quoted

/-- Every operator is read in the quoted state. -/
def Shielded : Bool → Line → Prop
  | _, [] => True
  | quoted, c :: rest =>
    if c = '"' then Shielded (!quoted) rest
    else (IsOperator c → quoted = true) ∧ Shielded quoted rest

/-- The quoted state behind a text. -/
def after (quoted : Bool) (text : Line) : Bool :=
  text.foldl (fun quoted c => if c = '"' then !quoted else quoted) quoted

variable (quoted : Bool)

@[simp] theorem after_nil : after quoted [] = quoted := rfl

@[simp] theorem after_cons (c : Char) (rest : Line) :
    after quoted (c :: rest) = after (if c = '"' then !quoted else quoted) rest := rfl

theorem after_append (x y : Line) :
    after quoted (x ++ y) = after (after quoted x) y := List.foldl_append

theorem after_not (text : Line) : after (!quoted) text = !after quoted text := by
  induction text generalizing quoted with
  | nil => rfl
  | cons c rest ih =>
    rw [after_cons, after_cons]
    split
    · rw [ih]
    · exact ih quoted

/-- The state is flipped by an odd number of double quotes. -/
theorem after_true (text : Line) : after true text = decide (text.count '"' % 2 = 0) := by
  induction text with
  | nil => rfl
  | cons c rest ih =>
    rw [after_cons]
    by_cases quote : c = '"'
    · rw [if_pos quote, after_not, ih, quote]
      rcases Nat.mod_two_eq_zero_or_one (rest.count '"') with even | odd
      · simp [even, Nat.add_mod]
      · simp [odd, Nat.add_mod]
    · simp [quote, ih]

attribute [local simp] commandText shellState Shielded

theorem shielded_cons_quote (rest : Line) :
    Shielded quoted ('"' :: rest) ↔ Shielded (!quoted) rest := by
  simp

theorem shielded_cons_of_ne {c : Char} (other : c ≠ '"') (quoted : Bool) (rest : Line) :
    Shielded quoted (c :: rest) ↔ (IsOperator c → quoted = true) ∧ Shielded quoted rest := by
  simp [other]

theorem shielded_append (x y : Line) :
    Shielded quoted (x ++ y) ↔ Shielded quoted x ∧ Shielded (after quoted x) y := by
  induction x generalizing quoted with
  | nil => simp
  | cons c x ih =>
    rw [List.cons_append, after_cons]
    by_cases quote : c = '"'
    · rw [quote, shielded_cons_quote, shielded_cons_quote, ih, if_pos rfl]
    · rw [shielded_cons_of_ne quote, shielded_cons_of_ne quote, ih, if_neg quote, and_assoc]

/-- Shielded is what stands behind an even number of double quotes. -/
theorem shielded_true_iff (text : Line) :
    Shielded true text ↔ ∀ u c v, text = u ++ c :: v → IsOperator c → u.count '"' % 2 = 0 := by
  constructor
  · rintro shielded u c v rfl operator
    have other : c ≠ '"' := by rintro rfl; exact absurd operator (by decide)
    have here := ((shielded_append true u (c :: v)).mp shielded).2
    have quoted := ((shielded_cons_of_ne other _ v).mp here).1 operator
    rw [after_true] at quoted
    exact of_decide_eq_true quoted
  · intro even
    -- Induction on what is read, with the rest behind it.
    have step : ∀ v u, text = u ++ v → Shielded (after true u) v := by
      intro v
      induction v with
      | nil => exact fun _ _ => trivial
      | cons c v ih =>
        intro u split
        have later := ih (u ++ [c]) (by rw [split, List.append_assoc]; rfl)
        rw [after_append, after_cons] at later
        by_cases quote : c = '"'
        · rw [quote]
          rwa [if_pos quote] at later
        · rw [shielded_cons_of_ne quote]
          rw [if_neg quote] at later
          refine ⟨fun operator => ?_, later⟩
          rw [after_true]
          exact decide_eq_true (even u c v split operator)
    exact step text [] rfl

theorem commandText_of_shielded {quoted : Bool} {text : Line} (shielded : Shielded quoted text) :
    commandText (shellState quoted) text = some text := by
  induction text generalizing quoted with
  | nil => cases quoted <;> rfl
  | cons c rest ih =>
    by_cases quote : c = '"'
    · rw [quote] at shielded
      cases quoted with
      | false => simp [quote, show commandText .quoted rest = _ from ih shielded]
      | true => simp [quote, show commandText .plain rest = _ from ih shielded]
    · obtain ⟨inside, later⟩ := (shielded_cons_of_ne quote quoted rest).mp shielded
      cases quoted with
      | false =>
        have none' : ¬ IsOperator c := fun operator => Bool.noConfusion (inside operator)
        have caret : c ≠ '^' := by rintro rfl; exact none' (by decide)
        simp [quote, caret, none', show commandText .plain rest = _ from ih later]
      | true => simp [quote, show commandText .quoted rest = _ from ih later]

/-- The shell adds no caret. -/
theorem caret_le {state : ShellState} {text command : Line}
    (reads : commandText state text = some command) : command.count '^' ≤ text.count '^' := by
  induction text generalizing state command with
  | nil =>
    cases state <;> cases reads <;> exact Nat.le_refl _
  | cons c rest ih =>
    have copied : ∀ {state'}, (commandText state' rest).map (c :: ·) = some command →
        command.count '^' ≤ (c :: rest).count '^' := by
      intro state' mapped
      obtain ⟨later, found, rfl⟩ := Option.map_eq_some_iff.mp mapped
      rw [List.count_cons, List.count_cons]
      exact Nat.add_le_add_right (ih found) _
    cases state with
    | escaped => exact copied reads
    | quoted => exact copied reads
    | plain =>
      rw [commandText] at reads
      split_ifs at reads with quote caret operator
      · exact copied reads
      · exact (ih reads).trans (List.count_le_count_cons)
      · exact copied reads

/-- An operator outside the quoted state costs a caret. -/
theorem caret_lt_of_not_shielded {quoted : Bool} {text command : Line}
    (exposed : ¬ Shielded quoted text)
    (reads : commandText (shellState quoted) text = some command) :
    command.count '^' < text.count '^' := by
  induction text generalizing quoted command with
  | nil => exact absurd trivial exposed
  | cons c rest ih =>
    have copied : ∀ quoted', ¬ Shielded quoted' rest →
        (commandText (shellState quoted') rest).map (c :: ·) = some command →
        command.count '^' < (c :: rest).count '^' := by
      intro quoted' exposed' mapped
      obtain ⟨later, found, rfl⟩ := Option.map_eq_some_iff.mp mapped
      rw [List.count_cons, List.count_cons]
      exact Nat.add_lt_add_right (ih exposed' found) _
    by_cases quote : c = '"'
    · rw [quote] at exposed
      cases quoted with
      | false => exact copied true exposed (by simpa [quote] using reads)
      | true => exact copied false exposed (by simpa [quote] using reads)
    · rw [shielded_cons_of_ne quote] at exposed
      cases quoted with
      | true =>
        refine copied true (fun later => exposed ⟨fun _ => rfl, later⟩) ?_
        simpa [quote] using reads
      | false =>
        rw [shellState, commandText] at reads
        split_ifs at reads with caret operator
        · rw [caret, List.count_cons_self]
          exact Nat.lt_succ_of_le (caret_le reads)
        · refine copied false (fun later => exposed ⟨fun yes => ?_, later⟩) reads
          exact absurd yes operator

/-! ## The started program -/

/-- The argument so far, with the backslashes that turned out to be literal. -/
def flush (slashes : Nat) (current : Option Line) : Option Line :=
  if slashes = 0 then current else some (current.getD [] ++ List.replicate slashes '\\')

/-- Split a command line.  `slashes` counts the backslashes read last and `current` is the
argument that has begun, if one has. -/
def arguments : Bool → Nat → Option Line → Line → List Line
  | _, slashes, current, [] => (flush slashes current).toList
  | quoted, slashes, current, c :: rest =>
    if c = '\\' then arguments quoted (slashes + 1) current rest
    else if c = '"' then
      -- Half of the backslashes stay; an odd one escapes the quote.
      let read := current.getD [] ++ List.replicate (slashes / 2) '\\'
      if slashes % 2 = 1 then arguments quoted 0 (some (read ++ ['"'])) rest
      else arguments (!quoted) 0 (some read) rest
    else if (c = ' ' ∨ c = '\t') ∧ quoted = false then
      (flush slashes current).toList ++ arguments quoted 0 none rest
    else
      arguments quoted 0 (some (current.getD [] ++ List.replicate slashes '\\' ++ [c])) rest

/-- The argument vector of a command. -/
def argv (command : Line) : List Line := arguments false 0 none command

section Steps

variable (quoted : Bool) (slashes : Nat) (current : Option Line) (rest : Line)

@[simp] theorem arguments_slash :
    arguments quoted slashes current ('\\' :: rest) = arguments quoted (slashes + 1) current rest := by
  simp [arguments]

@[simp] theorem arguments_quote :
    arguments quoted 0 current ('"' :: rest) = arguments (!quoted) 0 (some (current.getD [])) rest := by
  simp [arguments]

@[simp] theorem arguments_escaped_quote :
    arguments quoted 1 current ('"' :: rest) =
      arguments quoted 0 (some (current.getD [] ++ ['"'])) rest := by
  simp [arguments]

theorem arguments_quoted {c : Char} (slash : c ≠ '\\') (quote : c ≠ '"') :
    arguments true slashes current (c :: rest) =
      arguments true 0 (some (current.getD [] ++ List.replicate slashes '\\' ++ [c])) rest := by
  simp [arguments, slash, quote]

theorem arguments_space :
    arguments false 0 current (' ' :: rest) = current.toList ++ arguments false 0 none rest := by
  simp [arguments, flush]

end Steps

/-! ### Weighing the arguments -/

/-- What the characters of a text weigh. -/
def total (μ : Char → Nat) (text : Line) : Nat := (text.map μ).sum

variable (μ : Char → Nat)

@[simp] theorem total_nil : total μ [] = 0 := rfl

@[simp] theorem total_cons (c : Char) (text : Line) :
    total μ (c :: text) = μ c + total μ text := List.sum_cons

@[simp] theorem total_append (x y : Line) :
    total μ (x ++ y) = total μ x + total μ y := by
  simp [total]

@[simp] theorem total_replicate (n : Nat) (c : Char) :
    total μ (List.replicate n c) = n * μ c := by
  simp [total]

/-- What the arguments of a line weigh, from the line alone: each backslash weighs itself,
and half of that in front of a double quote. -/
def reading (μ : Char → Nat) : Nat → Line → Nat
  | slashes, [] => slashes * μ '\\'
  | slashes, c :: rest =>
    if c = '\\' then reading μ (slashes + 1) rest
    else if c = '"' then slashes * μ '"' + reading μ 0 rest
    else if c = ' ' ∨ c = '\t' then slashes * μ '\\' + reading μ 0 rest
    else slashes * μ '\\' + μ c + reading μ 0 rest

theorem total_flush (slashes : Nat) (current : Option Line) :
    total μ (flush slashes current).toList.flatten =
      total μ (current.getD []) + slashes * μ '\\' := by
  unfold flush
  split
  · rename_i none'
    cases current <;> simp [none']
  · simp

variable {μ : Char → Nat}

/-- **The weight of the arguments**, for weights that ignore white space and count a
backslash twice as much as a double quote. -/
theorem total_arguments (twice : μ '\\' = 2 * μ '"') (space : μ ' ' = 0)
    (tab : μ '\t' = 0) (quoted : Bool) (slashes : Nat) (current : Option Line) (text : Line) :
    total μ (arguments quoted slashes current text).flatten =
      total μ (current.getD []) + reading μ slashes text := by
  induction text generalizing quoted slashes current with
  | nil => exact total_flush μ slashes current
  | cons c rest ih =>
    by_cases slash : c = '\\'
    · simp [slash, reading, ih]
    by_cases quote : c = '"'
    · -- `2 * (slashes / 2)` and the escaped quote make up the weight of the run.
      by_cases odd : slashes % 2 = 1
      · have weights : slashes / 2 * μ '\\' + μ '"' = slashes * μ '"' := by
          rw [twice, ← Nat.mul_assoc, ← Nat.succ_mul]
          congr 1
          omega
        simp [arguments, reading, quote, odd, ih]
        omega
      · have weights : slashes / 2 * μ '\\' = slashes * μ '"' := by
          rw [twice, ← Nat.mul_assoc]
          congr 1
          omega
        simp [arguments, reading, quote, odd, ih, weights]
        omega
    by_cases blank : c = ' ' ∨ c = '\t'
    · have weightless : μ c = 0 := by rcases blank with rfl | rfl <;> assumption
      by_cases outside : quoted = false
      · simp [arguments, reading, slash, quote, blank, outside, ih, total_flush]
        omega
      · simp [arguments, reading, slash, quote, blank, outside, ih, weightless]
        omega
    · simp [arguments, reading, slash, quote, blank, ih]
      omega

theorem total_argv (twice : μ '\\' = 2 * μ '"') (space : μ ' ' = 0)
    (tab : μ '\t' = 0) (command : Line) : total μ (argv command).flatten = reading μ 0 command := by
  rw [argv, total_arguments twice space tab, Option.getD_none, total_nil, Nat.zero_add]

/-- A weight that backslashes and double quotes do not have is that of the line. -/
theorem reading_of_weightless (slash : μ '\\' = 0) (quote : μ '"' = 0)
    (space : μ ' ' = 0) (tab : μ '\t' = 0) (slashes : Nat) (text : Line) :
    reading μ slashes text = total μ text := by
  induction text generalizing slashes with
  | nil => simp [reading, slash]
  | cons c rest ih =>
    rw [reading, total_cons]
    split_ifs with isSlash isQuote isBlank
    · rw [ih, isSlash, slash, Nat.zero_add]
    · rw [ih, isQuote, quote, Nat.mul_zero]
    · rw [ih, slash, Nat.mul_zero]
      rcases isBlank with rfl | rfl
      · rw [space]
      · rw [tab]
    · rw [ih, slash, Nat.mul_zero, Nat.zero_add]

end Alera.Theory.WindowsCommandLine
