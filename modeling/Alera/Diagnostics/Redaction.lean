/-
# Alera.Diagnostics.Redaction -- masking secrets in log lines

The runtime's `redact` (`rust/alera-cli/src/terminal_host/diagnostics/redaction.rs`)
and the app's `redactLogText` (`lib/src/shared/infra/logging/log_redaction.dart`).
Both mask registered literals, then values after a key name, then bearer tokens,
with the same two patterns; they differ in what a character is and in which
characters the classes of the pattern language take in.

A text is a list of character codes: code points in the runtime, UTF-16 code
units in the app.  ASCII is fixed; an `Engine` says how the two regex engines
extend the classes beyond it.  The runtime's engine is Unicode aware, and its
table of word characters is a parameter (`UnicodeWords`); the app's is not.
-/
import Alera.Theory.Regex
import Mathlib.Data.List.DropRight
import Mathlib.Tactic.SplitIfs
import Mathlib.Algebra.Ring.Nat

namespace Alera.Diagnostics

open Theory

set_option autoImplicit false

abbrev Text := List Nat

/-- The codes of an ASCII literal. -/
def codes (literal : String) : Text := literal.toList.map Char.toNat

/-! ## Character classes -/

def asciiWord (a : Nat) : Bool :=
  decide (48 ≤ a ∧ a ≤ 57 ∨ 65 ≤ a ∧ a ≤ 90 ∨ a = 95 ∨ 97 ≤ a ∧ a ≤ 122)

def asciiSpace (a : Nat) : Bool := decide (9 ≤ a ∧ a ≤ 13 ∨ a = 32)

def asciiLower (a : Nat) : Nat := if 65 ≤ a ∧ a ≤ 90 then a + 32 else a

/-- `[A-Za-z0-9._\-+/=]`. -/
def asciiToken (a : Nat) : Bool :=
  decide (48 ≤ a ∧ a ≤ 57 ∨ 65 ≤ a ∧ a ≤ 90 ∨ a = 95 ∨ 97 ≤ a ∧ a ≤ 122 ∨ a = 46 ∨ a = 45 ∨
    a = 43 ∨ a = 47 ∨ a = 61)

/-- A regex engine's classes beyond ASCII. -/
structure Engine where
  /-- `\w`, which decides `\b`. -/
  word : Nat → Bool
  /-- `\s`. -/
  space : Nat → Bool
  /-- The lower-case ASCII letter a character equals when case is ignored. -/
  fold : Nat → Option Nat
  /-- Only `k` and `s` have a case variant beyond ASCII. -/
  fold_letter : ∀ a c, fold a = some c → c = 107 ∨ c = 115
  fold_word : ∀ a c, fold a = some c → word a = true
  word_space : ∀ a, word a = true → space a = false

namespace Engine

variable (e : Engine)

def isWord (a : Nat) : Bool := if a < 128 then asciiWord a else e.word a

def isSpace (a : Nat) : Bool := if a < 128 then asciiSpace a else e.space a

/-- Whether `a` matches the pattern character `c`, case ignored. -/
def letter (c a : Nat) : Bool := if a < 128 then asciiLower a == c else e.fold a == some c

/-- `[A-Za-z0-9._\-+/=]`, case ignored. -/
def isToken (a : Nat) : Bool := if a < 128 then asciiToken a else (e.fold a).isSome

/-- `[^\s",;}\)]`. -/
def isValue (a : Nat) : Bool := !e.isSpace a && !(a == 34 || a == 44 || a == 59 || a == 125 || a == 41)

end Engine

/-- The word characters beyond ASCII, as Unicode defines them. -/
structure UnicodeWords where
  word : Nat → Bool
  longS : word 0x17F = true
  kelvinSign : word 0x212A = true
  apart : ∀ a, word a = true → ¬ (a = 0x85 ∨ a = 0xA0 ∨ a = 0x1680 ∨ 0x2000 ≤ a ∧ a ≤ 0x200A ∨
    a = 0x2028 ∨ a = 0x2029 ∨ a = 0x202F ∨ a = 0x205F ∨ a = 0x3000)

/-- The `regex` crate: Unicode classes and simple case folding, under which the long
s and the Kelvin sign equal ASCII letters. -/
def rustEngine (words : UnicodeWords) : Engine where
  word := words.word
  space a := decide (a = 0x85 ∨ a = 0xA0 ∨ a = 0x1680 ∨ 0x2000 ≤ a ∧ a ≤ 0x200A ∨ a = 0x2028 ∨
    a = 0x2029 ∨ a = 0x202F ∨ a = 0x205F ∨ a = 0x3000)
  fold a := if a = 0x17F then some 115 else if a = 0x212A then some 107 else none
  fold_letter a c folds := by
    split at folds
    · cases folds; decide
    · split at folds
      · cases folds; decide
      · cases folds
  fold_word a c folds := by
    split at folds
    · rename_i longS
      rw [longS]
      exact words.longS
    · split at folds
      · rename_i kelvinSign
        rw [kelvinSign]
        exact words.kelvinSign
      · cases folds
  word_space a word := decide_eq_false (words.apart a word)

/-- Dart's `RegExp` without the unicode flag: ASCII words, ECMAScript white space. -/
def dartEngine : Engine where
  word _ := false
  space a := decide (a = 0xA0 ∨ a = 0x1680 ∨ 0x2000 ≤ a ∧ a ≤ 0x200A ∨ a = 0x2028 ∨ a = 0x2029 ∨
    a = 0x202F ∨ a = 0x205F ∨ a = 0x3000 ∨ a = 0xFEFF)
  fold _ := none
  fold_letter _ _ folds := nomatch folds
  fold_word _ _ folds := nomatch folds
  word_space _ word := nomatch word

/-! ## The two patterns -/

/-- `REDACTED`, `kRedactedPlaceholder`. -/
def redacted : Text := codes "[redacted]"

section Patterns

variable (e : Engine)

def word (literal : String) : Regex Nat := .spell e.letter (codes literal)

/-- `token|secret|password|passwd|api[_-]?key|authorization|deviceToken`. -/
def keyNamePattern : Regex Nat :=
  .alt (word e "token") (.alt (word e "secret") (.alt (word e "password") (.alt (word e "passwd")
    (.alt (.seq (word e "api") (.seq (.opt fun a => a == 95 || a == 45) (word e "key")))
      (.alt (word e "authorization") (word e "devicetoken"))))))

/-- `\b(…)\b"?\s*[:=]\s*"?([^\s",;}\)]+)`. -/
def keyedSecretPattern : Regex Nat :=
  .seq .boundary (.seq (.group (keyNamePattern e)) (.seq .boundary (.seq (.opt (· == 34))
    (.seq (.many e.isSpace) (.seq (.one fun a => a == 58 || a == 61) (.seq (.many e.isSpace)
      (.seq (.opt (· == 34)) (.plus e.isValue))))))))

/-- `\bbearer\s+([A-Za-z0-9._\-+/=]+)`. -/
def bearerPattern : Regex Nat :=
  .seq .boundary (.seq (word e "bearer") (.seq (.one e.isSpace) (.seq (.many e.isSpace)
    (.plus e.isToken))))

end Patterns

/-! ## The passes -/

section Passes

variable (e : Engine)

/-- `key=[redacted]`. -/
def writeKeyed (group : Text) : Text := group ++ (codes "=" ++ redacted)

/-- `Bearer [redacted]`. -/
def writeBearer (_ : Text) : Text := codes "Bearer " ++ redacted

def keyedPass (text : Text) : Text := (keyedSecretPattern e).replaceAll e.isWord writeKeyed text

def bearerPass (text : Text) : Text := (bearerPattern e).replaceAll e.isWord writeBearer text

/-- Mask one registered literal; letters count exactly. -/
def maskSecret (text secret : Text) : Text :=
  if secret <:+: text then
    (Regex.spell (fun c a => a == c) secret).replaceAll e.isWord (fun _ => redacted) text
  else text

/-- The loop over the registered literals. -/
def maskSecrets (secrets : List Text) (text : Text) : Text := secrets.foldl (maskSecret e) text

/-- The two pattern passes. -/
def redactPatterns (text : Text) : Text := bearerPass e (keyedPass e text)

end Passes

/-! ## Registered literals -/

/-- What the registry holds was trimmed and is long enough; eight bytes are at least
two characters. -/
structure SecretRegistry (e : Engine) where
  secrets : List Text
  long : ∀ secret ∈ secrets, 2 ≤ secret.length
  trimmed : ∀ secret ∈ secrets, ∀ a, secret.head? = some a → e.isSpace a = false

/-- Nothing registered yet. -/
def SecretRegistry.empty (e : Engine) : SecretRegistry e := ⟨[], nofun, nofun⟩

/-- `trim` over a set of white space. -/
def trim (space : Nat → Bool) (value : Text) : Text := (value.dropWhile space).rdropWhile space

theorem trim_head {space : Nat → Bool} {value : Text} {a : Nat}
    (head : (trim space value).head? = some a) : space a = false := by
  obtain ⟨tail, whole⟩ := List.rdropWhile_prefix space (value.dropWhile space)
  have outside := List.head?_dropWhile_not space value
  rw [← whole, List.head?_append, show ((value.dropWhile space).rdropWhile space).head? = _ from head] at outside
  simpa using outside

/-- `MIN_REGISTERED_SECRET_LEN`, `kMinRegisteredSecretLength`. -/
def minRegisteredSecretLength : Nat := 8

/-- Register a literal unless it is short or known; `size` is how the language counts. -/
def register {e : Engine} (space : Nat → Bool) (covers : ∀ a, e.isSpace a = true → space a = true)
    (size : Text → Nat) (size_le : ∀ text, size text ≤ 4 * text.length)
    (registry : SecretRegistry e) (value : Text) : SecretRegistry e :=
  if short : size (trim space value) < minRegisteredSecretLength then registry
  else if registry.secrets.contains (trim space value) then registry
  else
    { secrets := registry.secrets ++ [trim space value]
      long := by
        intro secret member
        rcases List.mem_append.mp member with old | new
        · exact registry.long secret old
        · have bound := size_le (trim space value)
          rw [List.mem_singleton.mp new]
          unfold minRegisteredSecretLength at short
          omega
      trimmed := by
        intro secret member a head
        rcases List.mem_append.mp member with old | new
        · exact registry.trimmed secret old a head
        · rw [List.mem_singleton.mp new] at head
          exact Bool.eq_false_iff.mpr fun within =>
            Bool.eq_false_iff.mp (trim_head head) (covers a within) }

/-- UTF-8 bytes of a code point. -/
def utf8Width (a : Nat) : Nat :=
  if a < 0x80 then 1 else if a < 0x800 then 2 else if a < 0x10000 then 3 else 4

/-- `str::len`. -/
def utf8Length (text : Text) : Nat := (text.map utf8Width).sum

theorem utf8Length_le (text : Text) : utf8Length text ≤ 4 * text.length := by
  induction text with
  | nil => exact Nat.le_refl _
  | cons a text ih =>
    have width : utf8Width a ≤ 4 := by
      unfold utf8Width
      split_ifs <;> decide
    have total : utf8Length (a :: text) = utf8Width a + utf8Length text := rfl
    rw [List.length_cons]
    omega

/-- `register_secret`. -/
def registerSecret {words : UnicodeWords} (registry : SecretRegistry (rustEngine words))
    (value : Text) : SecretRegistry (rustEngine words) :=
  register (rustEngine words).isSpace (fun _ space => space) utf8Length utf8Length_le registry value

/-- What Dart's `trim` removes: Unicode white space, which has U+0085 as well. -/
def dartTrimSpace (a : Nat) : Bool := dartEngine.isSpace a || a == 0x85

/-- `registerLogSecret`. -/
def registerLogSecret (registry : SecretRegistry dartEngine) (value : Text) :
    SecretRegistry dartEngine :=
  register dartTrimSpace (fun a space => by rw [dartTrimSpace, space]; rfl) List.length
    (fun text => by omega) registry value

/-! ## Redaction -/

/-- `redact`. -/
def redact {words : UnicodeWords} (registry : SecretRegistry (rustEngine words)) (input : Text) :
    Text :=
  redactPatterns (rustEngine words) (maskSecrets (rustEngine words) registry.secrets input)

/-- `_kMaxLogTextLength`. -/
def maxLogTextLength : Nat := 8 * 1024

/-- `redactLogText`. -/
def redactLogText (registry : SecretRegistry dartEngine) (input : Text) : Text :=
  if maxLogTextLength < input.length then codes "[oversized log field omitted]"
  else redactPatterns dartEngine (maskSecrets dartEngine registry.secrets input)

/-! ## What each redaction pass reads and writes

One spec lemma for each pattern: where it matches, what the match reads
(`keyed_found`, `bearer_found`), and, for the bearer pattern, that it matches a
header (`run_bearer`).  From these, what a pass can put into its output: nothing
a token could be, except a key name in front of the `=` it writes and the word
`Bearer` in its own spelling (`keyed_faithful`, `bearer_faithful`).
-/

open List Regex

variable {e : Engine}

/-! ## Characters -/

variable {a : Nat}

theorem asciiToken_lt (token : asciiToken a = true) : a < 128 := by
  simp only [asciiToken, decide_eq_true_eq] at token
  omega

theorem asciiLower_lt : asciiLower a < 128 ↔ a < 128 := by
  unfold asciiLower
  split_ifs <;> omega

namespace Engine

variable {a : Nat}

theorem letter_of_ascii (ascii : a < 128) (c : Nat) : e.letter c a = (asciiLower a == c) := by
  rw [letter, if_pos ascii]

variable {c : Nat}

theorem letter_cases (same : e.letter c a = true) :
    a < 128 ∧ asciiLower a = c ∨ ¬ a < 128 ∧ e.fold a = some c := by
  unfold letter at same
  split at same
  · exact .inl ⟨‹_›, by simpa using same⟩
  · exact .inr ⟨‹_›, by simpa using same⟩

theorem isWord_of_letter (lower : 97 ≤ c ∧ c ≤ 122) (same : e.letter c a = true) :
    e.isWord a = true := by
  rcases letter_cases same with ⟨ascii, rfl⟩ | ⟨beyond, folds⟩
  · rw [isWord, if_pos ascii]
    unfold asciiLower at lower
    simp only [asciiWord, decide_eq_true_eq]
    split_ifs at lower <;> omega
  · rw [isWord, if_neg beyond, e.fold_word a c folds]

theorem isToken_of_letter (token : asciiToken c = true) (same : e.letter c a = true) :
    e.isToken a = true := by
  rcases letter_cases same with ⟨ascii, rfl⟩ | ⟨beyond, folds⟩
  · rw [isToken, if_pos ascii]
    unfold asciiLower at token
    simp only [asciiToken, decide_eq_true_eq] at token ⊢
    split_ifs at token <;> omega
  · rw [isToken, if_neg beyond, folds]
    rfl

theorem isToken_of_ascii (token : asciiToken a = true) : e.isToken a = true := by
  rw [isToken, if_pos (asciiToken_lt token), token]

theorem isSpace_of_isWord (word : e.isWord a = true) : e.isSpace a = false := by
  unfold isWord at word
  unfold isSpace
  split at word
  · rw [if_pos ‹_›]
    simp only [asciiWord, asciiSpace, decide_eq_true_eq, decide_eq_false_iff_not] at word ⊢
    omega
  · rw [if_neg ‹_›, e.word_space a word]

theorem isSpace_of_isToken (token : e.isToken a = true) : e.isSpace a = false := by
  unfold isToken at token
  unfold isSpace
  split at token
  · rw [if_pos ‹_›]
    simp only [asciiToken, asciiSpace, decide_eq_true_eq, decide_eq_false_iff_not] at token ⊢
    omega
  · rw [if_neg ‹_›]
    obtain ⟨c, folds⟩ := Option.isSome_iff_exists.mp token
    exact e.word_space a (e.fold_word a c folds)

/-- What a space is not. -/
theorem of_isSpace (space : e.isSpace a = true) :
    e.isWord a = false ∧ e.isToken a = false ∧ e.isValue a = false := by
  refine ⟨?_, ?_, ?_⟩
  · exact Bool.eq_false_iff.mpr fun word => by rw [isSpace_of_isWord word] at space; cases space
  · exact Bool.eq_false_iff.mpr fun token => by rw [isSpace_of_isToken token] at space; cases space
  · rw [isValue, space]
    rfl

end Engine

/-- A word without `k` and `s` is spelled in ASCII. -/
theorem spells_iff_lower {name text : Text} (plain : ∀ c ∈ name, c < 128 ∧ c ≠ 107 ∧ c ≠ 115) :
    Spells e.letter name text ↔ text.map asciiLower = name := by
  induction text generalizing name with
  | nil =>
    constructor
    · intro spells
      cases spells
      rfl
    · rintro rfl
      exact .nil
  | cons a text ih =>
    constructor
    · rintro (_ | ⟨same, spells⟩)
      obtain ⟨_, notK, notS⟩ := plain _ (.head _)
      have later := (ih fun c member => plain c (.tail _ member)).mp spells
      rcases Engine.letter_cases same with ⟨_, lower⟩ | ⟨_, folds⟩
      · rw [map_cons, lower, later]
      · exact absurd (e.fold_letter _ _ folds) (by omega)
    · rintro rfl
      have ascii := (plain _ (.head _)).1
      refine .cons ?_ ((ih fun c member => plain c (.tail _ member)).mpr rfl)
      rw [Engine.letter_of_ascii (asciiLower_lt.mp ascii), beq_self_eq_true]

/-- A spelling of `bearer`, in any letter case. -/
def IsBearer (b : Text) : Prop := b.map asciiLower = codes "bearer"

variable {b : Text}

theorem spells_bearer : Spells e.letter (codes "bearer") b ↔ IsBearer b :=
  spells_iff_lower (by decide)

theorem IsBearer.head (spelled : IsBearer b) :
    ∃ a rest, b = a :: rest ∧ a < 128 ∧ asciiLower a = 98 := by
  cases b with
  | nil => cases spelled
  | cons a rest =>
    have lower : asciiLower a = 98 := (List.cons.inj spelled).1
    exact ⟨a, rest, rfl, asciiLower_lt.mp (by omega), lower⟩

theorem IsBearer.isWord (spelled : IsBearer b) : ∀ a ∈ b, e.isWord a = true := by
  intro a member
  have lower : asciiLower a ∈ codes "bearer" := spelled ▸ mem_map_of_mem member
  have range : ∀ c ∈ codes "bearer", c < 128 ∧ 97 ≤ c ∧ c ≤ 122 := by decide
  obtain ⟨ascii, bounds⟩ := range _ lower
  refine Engine.isWord_of_letter bounds ?_
  rw [Engine.letter_of_ascii (asciiLower_lt.mp ascii), beq_self_eq_true]

/-! ## Key names -/

/-- The key names in lower case. -/
def keyNames : List Text :=
  [codes "token", codes "secret", codes "password", codes "passwd", codes "apikey", codes "api_key",
    codes "api-key", codes "authorization", codes "devicetoken"]

/-- A key name as it may stand in a text. -/
def KeyName (e : Engine) (key : Text) : Prop := ∃ name ∈ keyNames, Spells e.letter name key

variable {d : Cursor Nat}

theorem mem_run_keyNamePattern {c : Cursor Nat} (member : d ∈ run e.isWord (keyNamePattern e) c) :
    ∃ key, KeyName e key ∧ c.rest = key ++ d.rest := by
  have named : ∀ {literal : String}, codes literal ∈ keyNames →
      d ∈ run e.isWord (word e literal) c → ∃ key, KeyName e key ∧ c.rest = key ++ d.rest := by
    intro literal known read
    obtain ⟨key, spells, rest⟩ := mem_run_spell read
    exact ⟨key, ⟨_, known, spells⟩, rest⟩
  rcases mem_append.mp member with token | member
  · exact named (by decide) token
  rcases mem_append.mp member with secret | member
  · exact named (by decide) secret
  rcases mem_append.mp member with password | member
  · exact named (by decide) password
  rcases mem_append.mp member with passwd | member
  · exact named (by decide) passwd
  rcases mem_append.mp member with apiKey | member
  · obtain ⟨m, api, member⟩ := mem_flatMap.mp apiKey
    obtain ⟨m', joint, key⟩ := mem_flatMap.mp member
    obtain ⟨x, spellsX, restX⟩ := mem_run_spell api
    obtain ⟨y, spellsY, restY⟩ := mem_run_spell key
    rcases mem_append.mp joint with one | none
    · obtain ⟨a, separator, read, _⟩ := mem_runOne one
      refine ⟨x ++ a :: y, ?_, by rw [restX, read, restY]; simp⟩
      rcases Bool.or_eq_true_iff.mp separator with underscore | hyphen
      · rw [beq_iff_eq.mp underscore]
        exact ⟨codes "api_key", by decide, rel_append spellsX (.cons rfl spellsY)⟩
      · rw [beq_iff_eq.mp hyphen]
        exact ⟨codes "api-key", by decide, rel_append spellsX (.cons rfl spellsY)⟩
    · rw [mem_singleton.mp none] at restY
      refine ⟨x ++ y, ⟨codes "apikey", by decide, rel_append spellsX spellsY⟩, ?_⟩
      rw [restX, restY, append_assoc]
  rcases mem_append.mp member with authorization | deviceToken
  · exact named (by decide) authorization
  · exact named (by decide) deviceToken

/-- A key name starts with one of five letters. -/
theorem KeyName.head {key : Text} (named : KeyName e key) :
    ∃ a rest c, key = a :: rest ∧ c ∈ codes "tspad" ∧ e.letter c a = true := by
  obtain ⟨name, known, spells⟩ := named
  have initial : ∀ name ∈ keyNames, ∃ c ∈ codes "tspad", name.head? = some c := by decide
  obtain ⟨c, listed, first⟩ := initial name known
  cases spells with
  | nil => cases first
  | cons same _ =>
    cases first
    exact ⟨_, _, c, rfl, listed, same⟩

theorem KeyName.isToken {key : Text} (named : KeyName e key) : ∀ a ∈ key, e.isToken a = true := by
  obtain ⟨name, known, spells⟩ := named
  have tokens : ∀ name ∈ keyNames, ∀ c ∈ name, asciiToken c = true := by decide
  intro a member
  obtain ⟨i, bound, rfl⟩ := mem_iff_getElem.mp member
  have same := spells.get (i := i) (spells.length_eq ▸ bound) bound
  exact Engine.isToken_of_letter (tokens name known _ (getElem_mem _)) same

/-! ## Matches -/

variable {prev : Option Nat}

/-- A keyed match starts behind no word character and reads the key it captures, then
at least a separator and a value. -/
theorem keyed_found {input : Text}
    (found : matchAt e.isWord (keyedSecretPattern e) prev input = some d) :
    KeyName e d.group ∧ prev.any e.isWord = false ∧
      ∃ more, 2 ≤ more.length ∧ input = d.group ++ more ++ d.rest := by
  obtain ⟨m, boundary, member⟩ := mem_flatMap.mp (mem_of_matchAt found)
  obtain ⟨rfl, parts⟩ := mem_run_boundary boundary
  obtain ⟨m, grouped, later⟩ := mem_flatMap.mp member
  obtain ⟨m', inner, read, rest⟩ := mem_run_group grouped
  obtain ⟨key, named, read'⟩ := mem_run_keyNamePattern inner
  obtain ⟨more, readMore, _, enough, kept⟩ := mem_run later
  have captured : d.group = m.group := kept rfl
  have same : key = m.group := append_cancel_right (read'.symm.trans read)
  dsimp only at read parts
  rw [captured, ← same]
  refine ⟨named, ?_, more, enough, by rw [same, read, ← rest, readMore, append_assoc]⟩
  obtain ⟨a, tail, c, rfl, listed, letter⟩ := named.head
  have lower : ∀ c ∈ codes "tspad", 97 ≤ c ∧ c ≤ 122 := by decide
  rw [read, ← same] at parts
  simpa [Engine.isWord_of_letter (lower c listed) letter] using parts

theorem bearer_found {input : Text} (found : matchAt e.isWord (bearerPattern e) prev input = some d) :
    prev.any e.isWord = false ∧ ∃ b more, IsBearer b ∧ input = b ++ more ++ d.rest := by
  obtain ⟨m, boundary, member⟩ := mem_flatMap.mp (mem_of_matchAt found)
  obtain ⟨rfl, parts⟩ := mem_run_boundary boundary
  obtain ⟨m, spelled, later⟩ := mem_flatMap.mp member
  obtain ⟨b, spells, read⟩ := mem_run_spell spelled
  obtain ⟨more, readMore, _⟩ := mem_run later
  have bearer := spells_bearer.mp spells
  dsimp only at read parts
  refine ⟨?_, b, more, bearer, by rw [read, readMore, append_assoc]⟩
  obtain ⟨a, tail, rfl, _⟩ := bearer.head
  rw [read] at parts
  simpa [bearer.isWord (e := e) a (.head _)] using parts

/-- No match starts where no key name does. -/
theorem keyed_none (apart : ∀ c ∈ codes "tspad", e.letter c a = false) (prev : Option Nat)
    (rest : Text) : matchAt e.isWord (keyedSecretPattern e) prev (a :: rest) = none := by
  refine Option.eq_none_iff_forall_ne_some.mpr fun d found => ?_
  obtain ⟨named, _, more, _, read⟩ := keyed_found found
  obtain ⟨a', tail, c, key, listed, letter⟩ := named.head
  rw [key] at read
  obtain ⟨rfl, _⟩ := List.cons.inj read
  rw [apart c listed] at letter
  cases letter

theorem keyed_none_of_ascii (ascii : a < 128) (apart : asciiLower a ∉ codes "tspad")
    (prev : Option Nat) (rest : Text) :
    matchAt e.isWord (keyedSecretPattern e) prev (a :: rest) = none := by
  refine keyed_none (fun c listed => ?_) prev rest
  rw [Engine.letter_of_ascii ascii, beq_eq_false_iff_ne]
  rintro rfl
  exact apart listed

theorem keyed_none_of_space (space : e.isSpace a = true) (prev : Option Nat) (rest : Text) :
    matchAt e.isWord (keyedSecretPattern e) prev (a :: rest) = none := by
  refine keyed_none (fun c listed => Bool.eq_false_iff.mpr fun same => ?_) prev rest
  have lower : ∀ c ∈ codes "tspad", 97 ≤ c ∧ c ≤ 122 := by decide
  have word := Engine.isWord_of_letter (lower c listed) same
  rw [(Engine.of_isSpace space).1] at word
  cases word

/-- A header: the bearer pattern reads the word and all white space, then tokens. -/
theorem run_bearer {w tail : Text} (bearer : IsBearer b) (start : prev.any e.isWord = false)
    (nonempty : w ≠ []) (spaces : ∀ a ∈ w, e.isSpace a = true)
    (stop : ∀ a, tail.head? = some a → e.isSpace a = false) :
    run e.isWord (bearerPattern e) ⟨prev, b ++ (w ++ tail), []⟩ =
      run e.isWord (plus e.isToken) ⟨lastOr prev (b ++ w), tail, []⟩ := by
  obtain ⟨a, w, rfl⟩ := exists_cons_of_ne_nil nonempty
  have boundary : run e.isWord .boundary ⟨prev, b ++ (a :: w ++ tail), []⟩ =
      [⟨prev, b ++ (a :: w ++ tail), []⟩] := by
    obtain ⟨β, rest, rfl, _⟩ := bearer.head
    simp [run, start, bearer.isWord (e := e) β (.head _)]
  have one : runOne e.isSpace ⟨lastOr prev b, a :: w ++ tail, []⟩ =
      [⟨some a, w ++ tail, []⟩] := if_pos (spaces a (.head _))
  have fails : ∀ (prev : Option Nat) (a : Nat) (rest group : Text), e.isSpace a = true →
      run e.isWord (plus e.isToken) ⟨prev, a :: rest, group⟩ = [] := by
    intro prev a rest group space
    simp [plus, run, runOne, (Engine.of_isSpace space).2.1]
  have later : ∀ a ∈ w, e.isSpace a = true := fun a member => spaces a (.tail _ member)
  have stopped : tail.takeWhile e.isSpace = [] ∧ tail.dropWhile e.isSpace = tail := by
    cases tail with
    | nil => exact ⟨rfl, rfl⟩
    | cons c tail => simp [stop c rfl]
  show (run e.isWord .boundary _).flatMap _ = _
  rw [boundary, flatMap_singleton]
  show (run e.isWord (.spell e.letter (codes "bearer")) _).flatMap _ = _
  rw [run_spell (spells_bearer.mpr bearer), flatMap_singleton]
  show (runOne e.isSpace _).flatMap _ = _
  rw [one, flatMap_singleton, run_seq_many fails, skip]
  rw [takeWhile_append_of_pos later, dropWhile_append_of_pos later, stopped.1, stopped.2,
    append_nil, lastOr_append, lastOr_cons]

/-! ## What the passes can spell -/

/-- `u` is empty or ends with a character that is not a word character. -/
def AtBoundary (e : Engine) (u : Text) : Prop := u.getLast?.any e.isWord = false

/-- The keyed pass can turn `y` into `t`: it writes `=` behind a key name that ends `y`, or
that `y` is the end of. -/
def Unkeyed (e : Engine) (y t : Text) : Prop :=
  t = y ++ codes "=" ∧ ∃ key, KeyName e key ∧ (y <:+ key ∨ ∃ u, AtBoundary e u ∧ y = u ++ key)

/-- The bearer pass can turn `y` into `t`: it gives a beginning of the word `bearer`, which
ends `y`, its own letter case. -/
def Recased (e : Engine) (y t : Text) : Prop :=
  ∃ u v v', AtBoundary e u ∧ v ≠ [] ∧ v <+: codes "Bearer" ∧
    v'.map asciiLower = v.map asciiLower ∧ y = u ++ v' ∧ t = u ++ v

/-- A text of token characters that the placeholder does not hold. -/
structure Foreign (t : Text) : Prop where
  token : ∀ a ∈ t, asciiToken a = true
  apart : ¬ t <:+: redacted

namespace Foreign

variable {t : Text}

theorem not_mem (foreign : Foreign t) {a : Nat} (outside : asciiToken a = false) : a ∉ t := by
  intro member
  rw [foreign.token a member] at outside
  cases outside

/-- The placeholder hides nothing in front of it or behind it. -/
theorem of_placeholder (foreign : Foreign t) {before after : Text}
    (within : t <:+: before ++ (redacted ++ after)) : t <:+: before ∨ t <:+: after := by
  have opened : redacted ++ after = 91 :: (codes "redacted" ++ 93 :: after) := rfl
  rw [opened] at within
  rcases infix_of_separator (foreign.not_mem rfl) within with first | rest
  · exact .inl first
  · rcases infix_of_separator (foreign.not_mem rfl) rest with inner | last
    · exact absurd (inner.trans ⟨[91], [93], rfl⟩) foreign.apart
    · exact .inr last

end Foreign

section Faithful

variable {t : Text}

theorem literal_faithful (foreign : Foreign t) (secret : Text) :
    Faithful e.isWord (spell (fun c a => a == c) secret) (fun _ => redacted) t fun _ => False where
  starts := by
    intro prev taken rest group _ u t' o split _ begins
    have outside : 91 ∉ t' := fun member => foreign.not_mem rfl (split ▸ mem_append_right u member)
    rw [prefix_nil.mp (begins_of_separator outside begins)]
    exact .inl nil_prefix
  inside := by
    intro prev taken rest group _ o within
    rcases foreign.of_placeholder (show t <:+: [] ++ (redacted ++ o) from within) with
      empty | later
    · rw [infix_nil.mp empty]
      exact .inl nil_infix
    · exact .inr (.inl later)

theorem atBoundary_of_last {u : Text} {prev : Option Nat} (last : u ≠ [] → prev = u.getLast?)
    (start : prev.any e.isWord = false) : AtBoundary e u := by
  by_cases empty : u = []
  · rw [empty]
    rfl
  · rwa [AtBoundary, ← last empty]

theorem keyed_faithful (foreign : Foreign t) :
    Faithful e.isWord (keyedSecretPattern e) writeKeyed t (Unkeyed e · t) where
  starts := by
    intro prev taken rest key found u t' o split last begins
    obtain ⟨named, start, more, _, read⟩ := keyed_found found
    have taken_eq : taken = key ++ more := append_cancel_right read
    have outside : 91 ∉ t' := fun member => foreign.not_mem rfl (split ▸ mem_append_right u member)
    have opened : writeKeyed key ++ o = key ++ codes "=" ++ 91 :: (codes "redacted]" ++ o) := by
      simp [writeKeyed, redacted, codes]
    rw [opened] at begins
    -- `t'` ends within the key, or it is the key with the written `=`.
    rcases prefix_concat_iff.mp (begins_of_separator outside begins) with rfl | within
    · refine .inr ⟨u ++ key, ⟨by rw [split, append_assoc]; rfl, key, named, .inr ⟨u, ?_, rfl⟩⟩, ?_⟩
      · exact atBoundary_of_last last start
      · rw [taken_eq, ← append_assoc]
        exact prefix_append _ _
    · rw [taken_eq]
      exact .inl (within.trans (prefix_append _ _))
  inside := by
    intro prev taken rest key found o within
    obtain ⟨named, _, more, _, read⟩ := keyed_found found
    have taken_eq : taken = key ++ more := append_cancel_right read
    have opened : writeKeyed key ++ o = key ++ codes "=" ++ (redacted ++ o) := by simp [writeKeyed]
    rw [opened] at within
    rcases foreign.of_placeholder within with ⟨before, after, whole⟩ | later
    · rw [taken_eq]
      rcases eq_nil_or_concat after with rfl | ⟨after, last, rfl⟩
      · rw [append_nil] at whole
        -- `t` ends with the written `=`, or it is empty.
        rcases eq_nil_or_concat t with rfl | ⟨y, a, rfl⟩
        · exact .inl nil_infix
        · rw [concat_eq_append, ← append_assoc] at whole
          obtain ⟨front, same⟩ := append_inj' whole rfl
          rw [concat_eq_append, same]
          refine .inr (.inr ⟨y, ⟨rfl, key, named, .inl ⟨before, front⟩⟩, ?_⟩)
          exact (show y <:+ key from ⟨before, front⟩).isInfix.trans (prefix_append _ _).isInfix
      · rw [concat_eq_append, ← append_assoc] at whole
        have front := (append_inj' whole rfl).1
        exact .inl ((show t <:+: key from ⟨before, after, front⟩).trans (prefix_append _ _).isInfix)
    · exact .inr (.inl later)

theorem bearer_faithful (foreign : Foreign t) (long : 8 ≤ t.length) :
    Faithful e.isWord (bearerPattern e) writeBearer t (Recased e · t) where
  starts := by
    intro prev taken rest group found u t' o split last begins
    obtain ⟨start, b, more, bearer, read⟩ := bearer_found found
    have taken_eq : taken = b ++ more := append_cancel_right read
    have outside : 32 ∉ t' := fun member => foreign.not_mem rfl (split ▸ mem_append_right u member)
    have opened : writeBearer group ++ o = codes "Bearer" ++ 32 :: (redacted ++ o) := rfl
    rw [opened] at begins
    have capital := begins_of_separator outside begins
    by_cases empty : t' = []
    · rw [empty]
      exact .inl nil_prefix
    · refine .inr ⟨u ++ b.take t'.length, ⟨u, t', b.take t'.length,
        atBoundary_of_last last start, empty, capital, ?_, rfl, split⟩, ?_⟩
      · rw [map_take, show b.map asciiLower = (codes "Bearer").map asciiLower from bearer,
          ← map_take, ← prefix_iff_eq_take.mp capital]
      · rw [taken_eq]
        exact (prefix_append_right_inj u).mpr
          ((List.take_prefix _ _).trans (prefix_append _ _))
  inside := by
    intro prev taken rest group _ o within
    have opened : writeBearer group ++ o = codes "Bearer " ++ (redacted ++ o) := rfl
    rw [opened] at within
    rcases foreign.of_placeholder within with header | later
    · have short := header.length_le
      exact absurd (long.trans short) (by decide)
    · exact .inr (.inl later)

end Faithful

end Alera.Diagnostics
