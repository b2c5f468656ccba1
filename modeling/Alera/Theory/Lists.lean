/-
# Alera.Theory.Lists -- patterns, words and positions in a list

`find pattern text` is the position at which `pattern` first stands in `text`.  Code that
walks a text by such searches is compared with a reader who takes one element at a time by
induction on the text, with `find_of_start` and `find_cons` as the two cases.

`matchIndices` finds the places of a pattern from left to right, each behind the one
before, so that it passes over a place that overlaps an earlier one: a single match is
the only place only if no two places overlap (`matchIndices_single_unique_iff`).
`splitPattern` is the text between the matches.
-/
import Mathlib.Data.List.Basic
import Mathlib.Data.List.DropRight

namespace Alera.Theory

open List

set_option autoImplicit false

universe u

variable {α : Type u} [DecidableEq α]

def find (pattern : List α) : List α → Option Nat
  | [] => if pattern.isEmpty then some 0 else none
  | a :: rest => if pattern.isPrefixOf (a :: rest) then some 0 else (find pattern rest).map (· + 1)

variable {pattern : List α} {text : List α}

theorem find_of_start (here : pattern.isPrefixOf text = true) : find pattern text = some 0 := by
  cases text with
  | nil =>
    have empty : pattern = [] := by simpa using here
    simp [find, empty]
  | cons a rest => simp [find, here]

theorem find_cons {a : α} {rest : List α} (elsewhere : pattern.isPrefixOf (a :: rest) = false) :
    find pattern (a :: rest) = (find pattern rest).map (· + 1) := by
  simp [find, elsewhere]

/-- The pattern stands at a position of the text. -/
def OccursAt (pattern text : List α) (p : Nat) : Prop := pattern <+: text.drop p

theorem find_spec {n : Nat} (found : find pattern text = some n) :
    n ≤ text.length ∧ OccursAt pattern text n := by
  induction text generalizing n with
  | nil =>
    by_cases empty : pattern = []
    · simp [find, empty] at found
      simp [OccursAt, empty, ← found]
    · simp [find, empty] at found
  | cons a rest ih =>
    cases here : pattern.isPrefixOf (a :: rest) with
    | true =>
      rw [find_of_start here] at found
      cases found
      exact ⟨Nat.zero_le _, isPrefixOf_iff_prefix.mp here⟩
    | false =>
      rw [find_cons here] at found
      obtain ⟨m, foundLater, rfl⟩ := Option.map_eq_some_iff.mp found
      exact ⟨Nat.succ_le_succ (ih foundLater).1, (ih foundLater).2⟩

/-- A pattern that is found ends inside the text. -/
theorem find_le {n : Nat} (found : find pattern text = some n) :
    n + pattern.length ≤ text.length := by
  obtain ⟨inside, occurs⟩ := find_spec found
  have short := occurs.length_le
  rw [length_drop] at short
  omega

omit [DecidableEq α] in
theorem OccursAt.split {p : Nat} (occurs : OccursAt pattern text p) :
    text = text.take p ++ (pattern ++ text.drop (p + pattern.length)) := by
  obtain ⟨rest, same⟩ := occurs
  rw [← drop_drop, ← same, drop_left, same, take_append_drop]

/-- The pieces stand in the text one behind the other. -/
def OccurInOrder : List (List α) → List α → Prop
  | [], _ => True
  | piece :: pieces, text =>
    ∃ before after, text = before ++ (piece ++ after) ∧ OccurInOrder pieces after

/-! ## Matches from left to right -/

/-- The matches behind the next `skip` elements, in a text that starts at `position`. -/
def matchesFrom (pattern : List α) : Nat → Nat → List α → List Nat
  | _, _, [] => []
  | skip + 1, position, _ :: rest => matchesFrom pattern skip (position + 1) rest
  | 0, position, a :: rest =>
    if pattern.isPrefixOf (a :: rest) then
      position :: matchesFrom pattern (pattern.length - 1) (position + 1) rest
    else matchesFrom pattern 0 (position + 1) rest

/-- `str::match_indices` for a pattern that is not empty. -/
def matchIndices (pattern text : List α) : List Nat := matchesFrom pattern 0 0 text

theorem occursAt_of_mem_matchesFrom {skip position p : Nat}
    (found : p ∈ matchesFrom pattern skip position text) :
    ∃ r, p = position + r ∧ OccursAt pattern text r := by
  induction text generalizing skip position with
  | nil => simp [matchesFrom] at found
  | cons a rest ih =>
    have later : ∀ {skip}, p ∈ matchesFrom pattern skip (position + 1) rest →
        ∃ r, p = position + r ∧ OccursAt pattern (a :: rest) r := by
      intro skip there
      obtain ⟨r, rfl, occurs⟩ := ih there
      exact ⟨r + 1, by omega, occurs⟩
    cases skip with
    | succ skip =>
      exact later found
    | zero =>
      rw [matchesFrom] at found
      split at found
      next here =>
        rcases mem_cons.mp found with rfl | there
        · exact ⟨0, rfl, isPrefixOf_iff_prefix.mp here⟩
        · exact later there
      next => exact later found

/-- Every place is that of a match, or begins inside of one. -/
theorem exists_match_of_occursAt (some_ : pattern ≠ []) (skip position : Nat)
    {q : Nat} (occurs : OccursAt pattern text q) (behind : skip ≤ q) :
    ∃ r, position + r ∈ matchesFrom pattern skip position text ∧ r ≤ q ∧
      q < r + pattern.length := by
  have positive : 0 < pattern.length := length_pos_iff.mpr some_
  induction text generalizing skip position q with
  | nil =>
    have empty : pattern = [] := by simpa [OccursAt] using occurs
    exact absurd empty some_
  | cons a rest ih =>
    -- A place behind the first element is one in the rest.
    have later : ∀ skip {q}, OccursAt pattern (a :: rest) (q + 1) → skip ≤ q →
        ∃ r, position + r ∈ matchesFrom pattern skip (position + 1) rest ∧ r ≤ q + 1 ∧
          q + 1 < r + pattern.length := by
      intro skip q there behind
      obtain ⟨r, found, before, within⟩ := ih skip (position + 1) there behind
      refine ⟨r + 1, ?_, by omega, by omega⟩
      rwa [Nat.add_assoc, Nat.add_comm 1 r] at found
    cases skip with
    | succ skip =>
      obtain ⟨q, rfl⟩ := Nat.exists_eq_add_one_of_ne_zero (Nat.ne_of_gt (Nat.lt_of_lt_of_le
        (Nat.succ_pos skip) behind))
      exact later skip occurs (Nat.le_of_succ_le_succ behind)
    | zero =>
      rw [matchesFrom]
      split
      next here =>
        by_cases inside : q < pattern.length
        · exact ⟨0, mem_cons_self, Nat.zero_le q, by omega⟩
        · obtain ⟨q, rfl⟩ := Nat.exists_eq_add_one_of_ne_zero (show q ≠ 0 by omega)
          obtain ⟨r, found, before, within⟩ := later (pattern.length - 1) occurs (by omega)
          exact ⟨r, mem_cons_of_mem _ found, before, within⟩
      next elsewhere =>
        cases q with
        | zero => exact absurd (List.isPrefixOf_iff_prefix.mpr occurs) elsewhere
        | succ q => exact later 0 occurs (Nat.zero_le q)

/-- A single match is the first place, and every other place overlaps it. -/
theorem matchIndices_single (some_ : pattern ≠ []) {p : Nat}
    (single : matchIndices pattern text = [p]) :
    OccursAt pattern text p ∧ ∀ q, OccursAt pattern text q → p ≤ q ∧ q < p + pattern.length := by
  have found : p ∈ matchesFrom pattern 0 0 text := by
    rw [← matchIndices, single]
    exact mem_singleton_self p
  obtain ⟨r, same, occurs⟩ := occursAt_of_mem_matchesFrom found
  rw [Nat.zero_add] at same
  refine ⟨same ▸ occurs, fun q there => ?_⟩
  obtain ⟨r, found, before, within⟩ :=
    exists_match_of_occursAt some_ 0 0 there (Nat.zero_le q)
  rw [← matchIndices, single, mem_singleton, Nat.zero_add] at found
  exact found ▸ ⟨before, within⟩

/-- No two places of the pattern overlap. -/
def NoOverlap (pattern text : List α) : Prop :=
  ∀ p q, OccursAt pattern text p → OccursAt pattern text q → p < q → p + pattern.length ≤ q

theorem matchIndices_single_unique_iff (some_ : pattern ≠ []) {p : Nat}
    (single : matchIndices pattern text = [p]) :
    (∀ q, OccursAt pattern text q → q = p) ↔ NoOverlap pattern text := by
  obtain ⟨occurs, others⟩ := matchIndices_single some_ single
  constructor
  · intro unique a b atA atB before
    have sameA := unique a atA
    have sameB := unique b atB
    omega
  · intro disjoint q there
    obtain ⟨behind, inside⟩ := others q there
    by_contra different
    have apart := disjoint p q occurs there (by omega)
    omega

/-! ## The text between matches -/

/-- The pieces behind the next `skip` elements, the first of them begun. -/
def splitPatternFrom (pattern : List α) : Nat → List α → List α → List (List α)
  | _, piece, [] => [piece.reverse]
  | skip + 1, piece, _ :: rest => splitPatternFrom pattern skip piece rest
  | 0, piece, a :: rest =>
    if pattern.isPrefixOf (a :: rest) then
      piece.reverse :: splitPatternFrom pattern (pattern.length - 1) [] rest
    else splitPatternFrom pattern 0 (a :: piece) rest

/-- `str::split` at a pattern that is not empty. -/
def splitPattern (pattern text : List α) : List (List α) := splitPatternFrom pattern 0 [] text

theorem splitPatternFrom_ne_nil (skip : Nat) (piece text : List α) :
    splitPatternFrom pattern skip piece text ≠ [] := by
  induction text generalizing skip piece with
  | nil =>
    exact cons_ne_nil _ _
  | cons a rest ih =>
    cases skip with
    | succ skip =>
      exact ih skip piece
    | zero =>
      rw [splitPatternFrom]
      split
      · exact cons_ne_nil _ _
      · exact ih 0 (a :: piece)

theorem intercalate_splitPatternFrom (some_ : pattern ≠ []) (skip : Nat) (piece text : List α) :
    List.intercalate pattern (splitPatternFrom pattern skip piece text) =
      piece.reverse ++ text.drop skip := by
  induction text generalizing skip piece with
  | nil => simp [splitPatternFrom, List.intercalate]
  | cons a rest ih =>
    cases skip with
    | succ skip =>
      rw [splitPatternFrom, ih]
      rfl
    | zero =>
      rw [splitPatternFrom]
      split
      next here =>
        obtain ⟨later, same⟩ := isPrefixOf_iff_prefix.mp here
        have tail : rest.drop (pattern.length - 1) = later := by
          obtain ⟨b, more, rfl⟩ := exists_cons_of_ne_nil some_
          rw [cons_append] at same
          rw [← (List.cons.inj same).2, length_cons, Nat.add_sub_cancel, drop_left]
        rw [intercalate_cons_of_ne_nil (splitPatternFrom_ne_nil _ _ _), ih, tail]
        simp [← same]
      next => rw [ih, reverse_cons, append_assoc, drop_zero, drop_zero, singleton_append]

theorem length_splitPatternFrom (skip position : Nat) (piece text : List α) :
    (splitPatternFrom pattern skip piece text).length =
      (matchesFrom pattern skip position text).length + 1 := by
  induction text generalizing skip position piece with
  | nil => rfl
  | cons a rest ih =>
    cases skip with
    | succ skip =>
      exact ih skip (position + 1) piece
    | zero =>
      rw [splitPatternFrom, matchesFrom]
      split
      · rw [length_cons, length_cons, ih _ (position + 1)]
      · exact ih 0 (position + 1) (a :: piece)

/-- Where the pattern is found, there are pieces before and behind it. -/
theorem one_lt_length_splitPattern (some_ : pattern ≠ []) {p : Nat}
    (found : find pattern text = some p) : 1 < (splitPattern pattern text).length := by
  obtain ⟨r, match_, -⟩ :=
    exists_match_of_occursAt some_ 0 0 (find_spec found).2 (Nat.zero_le p)
  rw [splitPattern, length_splitPatternFrom 0 0]
  exact Nat.succ_lt_succ (length_pos_of_mem match_)

/-- The pieces with the pattern between them are the text. -/
theorem intercalate_splitPattern (some_ : pattern ≠ []) (text : List α) :
    List.intercalate pattern (splitPattern pattern text) = text :=
  intercalate_splitPatternFrom some_ 0 [] text

/-! ## The words of a text, and what becomes of the space between them

A word is a maximal run of elements that are no separators.  `splitWords` lists the
words, `mapWords` rewrites each word in place and keeps every separator.

Splitting, rewriting and joining with a single separator is not rewriting in place:
it is so exactly for the texts that are words with one such separator between them
(`intercalate_map_eq_mapWords_iff`).  Proofs go along a text by `word_induction`: it is
empty, it starts with a separator, or it starts with a word.
-/

variable {α : Type u} (sep : α → Bool)

/-- The words of a text, behind the reversed beginning of one. -/
def splitWordsFrom : List α → List α → List (List α)
  | word, [] => if word.isEmpty then [] else [word.reverse]
  | word, a :: rest =>
    if sep a then (if word.isEmpty then [] else [word.reverse]) ++ splitWordsFrom [] rest
    else splitWordsFrom (a :: word) rest

def splitWords (text : List α) : List (List α) := splitWordsFrom sep [] text

/-- Rewrite the words of a text, behind the reversed beginning of one. -/
def mapWordsFrom (f : List α → List α) : List α → List α → List α
  | word, [] => if word.isEmpty then [] else f word.reverse
  | word, a :: rest =>
    if sep a then (if word.isEmpty then [] else f word.reverse) ++ a :: mapWordsFrom f [] rest
    else mapWordsFrom f (a :: word) rest

def mapWords (f : List α → List α) (text : List α) : List α := mapWordsFrom sep f [] text

/-- Some elements, none of them a separator. -/
def IsWord (word : List α) : Prop := word ≠ [] ∧ ∀ a ∈ word, sep a = false

instance (word : List α) : Decidable (IsWord sep word) :=
  decidable_of_iff (word.isEmpty = false ∧ word.all (fun a => !sep a) = true) (by simp [IsWord])

/-- Nothing, or a separator first: where a word ends. -/
def Breaks (rest : List α) : Prop := ∀ a ∈ rest.head?, sep a = true

variable {sep}

section Shapes

variable {f : List α → List α}

theorem splitWordsFrom_append {word : List α} (inside : ∀ a ∈ word, sep a = false) (begun rest : List α) :
    splitWordsFrom sep begun (word ++ rest) = splitWordsFrom sep (word.reverse ++ begun) rest := by
  induction word generalizing begun with
  | nil => rfl
  | cons a word ih =>
    have here : sep a = false := inside a mem_cons_self
    rw [cons_append, splitWordsFrom, if_neg (by simp [here]),
      ih (fun b member => inside b (.tail _ member)), reverse_cons, append_assoc]
    rfl

theorem mapWordsFrom_append {word : List α} (inside : ∀ a ∈ word, sep a = false) (begun rest : List α) :
    mapWordsFrom sep f begun (word ++ rest) = mapWordsFrom sep f (word.reverse ++ begun) rest := by
  induction word generalizing begun with
  | nil => rfl
  | cons a word ih =>
    have here : sep a = false := inside a mem_cons_self
    rw [cons_append, mapWordsFrom, if_neg (by simp [here]),
      ih (fun b member => inside b (.tail _ member)), reverse_cons, append_assoc]
    rfl

@[simp] theorem splitWords_nil : splitWords sep [] = [] := rfl

@[simp] theorem mapWords_nil : mapWords sep f [] = [] := rfl

theorem splitWords_sep {a : α} (separates : sep a = true) (rest : List α) :
    splitWords sep (a :: rest) = splitWords sep rest := by
  simp [splitWords, splitWordsFrom, separates]

theorem mapWords_sep {a : α} (separates : sep a = true) (rest : List α) :
    mapWords sep f (a :: rest) = a :: mapWords sep f rest := by
  simp [mapWords, mapWordsFrom, separates]

theorem splitWords_word {word rest : List α} (isWord : IsWord sep word) (breaks : Breaks sep rest) :
    splitWords sep (word ++ rest) = word :: splitWords sep rest := by
  rw [splitWords, splitWordsFrom_append isWord.2]
  cases rest with
  | nil => simp [splitWordsFrom, isWord.1]
  | cons a rest =>
    have separates : sep a = true := breaks a rfl
    simp [splitWordsFrom, separates, isWord.1, splitWords]

theorem mapWords_word {word rest : List α} (isWord : IsWord sep word) (breaks : Breaks sep rest) :
    mapWords sep f (word ++ rest) = f word ++ mapWords sep f rest := by
  rw [mapWords, mapWordsFrom_append isWord.2]
  cases rest with
  | nil => simp [mapWordsFrom, isWord.1]
  | cons a rest =>
    have separates : sep a = true := breaks a rfl
    simp [mapWordsFrom, separates, isWord.1, mapWords]

end Shapes

/-- A text is empty, starts with a separator, or starts with a word. -/
theorem word_induction (sep : α → Bool) {P : List α → Prop} (nil : P [])
    (space : ∀ a rest, sep a = true → P rest → P (a :: rest))
    (word : ∀ word rest, IsWord sep word → Breaks sep rest → P rest → P (word ++ rest)) :
    ∀ text, P text := by
  intro text
  induction size : text.length using Nat.strongRecOn generalizing text with
  | ind n ih =>
    subst size
    cases text with
    | nil => exact nil
    | cons a rest =>
      by_cases separates : sep a = true
      · exact space a rest separates (ih rest.length (by simp) rest rfl)
      · let continues : α → Bool := fun b => !sep b
        let first := (a :: rest).takeWhile continues
        let later := (a :: rest).dropWhile continues
        have whole : first ++ later = a :: rest := takeWhile_append_dropWhile
        have isWord : IsWord sep first := by
          constructor
          · simp [first, continues, separates]
          · intro b member
            have all : (first.all continues) = true := all_takeWhile
            have holds := all_eq_true.mp all b member
            simpa [continues] using holds
        have breaks : Breaks sep later := by
          intro b isHead
          have stops := head?_dropWhile_not continues (a :: rest)
          rw [show (List.dropWhile continues (a :: rest)).head? = some b from isHead] at stops
          simpa [continues] using stops
        have shorter : later.length < (a :: rest).length := by
          have nonempty : 0 < first.length := length_pos_of_ne_nil isWord.1
          have total := congrArg List.length whole
          rw [length_append] at total
          omega
        rw [← whole]
        exact word first later isWord breaks (ih later.length shorter later rfl)

theorem isWord_of_mem_splitWords (text : List α) : ∀ w ∈ splitWords sep text, IsWord sep w := by
  induction text using word_induction sep with
  | nil => simp
  | space a rest separates ih => rwa [splitWords_sep separates]
  | word word rest isWord breaks ih =>
    rw [splitWords_word isWord breaks]
    exact forall_mem_cons.mpr ⟨isWord, ih⟩

/-! ## Words joined by one separator -/

theorem intercalate_cons (space : α) (word : List α) (words : List (List α)) :
    intercalate [space] (word :: words) = word ++ words.flatMap (space :: ·) := by
  induction words generalizing word with
  | nil => simp [intercalate]
  | cons next words ih =>
    have step : intercalate [space] (word :: next :: words) =
        word ++ space :: intercalate [space] (next :: words) := by
      simp [intercalate, List.intersperse]
    rw [step, ih, flatMap_cons, cons_append]

section Joining

variable {f : List α → List α} {space : α}

theorem breaks_joined (separates : sep space = true) (words : List (List α)) :
    Breaks sep (words.flatMap (space :: ·)) := by
  cases words with
  | nil => nofun
  | cons word words =>
    intro a isHead
    cases isHead
    exact separates

/-- Joined words, split again and rewritten in place. -/
theorem words_intercalate (separates : sep space = true) {words : List (List α)}
    (areWords : ∀ w ∈ words, IsWord sep w) :
    splitWords sep (intercalate [space] words) = words ∧
      mapWords sep f (intercalate [space] words) = intercalate [space] (words.map f) := by
  induction words with
  | nil => exact ⟨rfl, rfl⟩
  | cons word words ih =>
    have rest : splitWords sep (words.flatMap (space :: ·)) = words ∧
        mapWords sep f (words.flatMap (space :: ·)) = (words.map f).flatMap (space :: ·) := by
      cases words with
      | nil => exact ⟨rfl, rfl⟩
      | cons next words =>
        have later := ih fun w member => areWords w (.tail _ member)
        rw [intercalate_cons, map_cons, intercalate_cons] at later
        rw [flatMap_cons, cons_append,
          splitWords_sep separates, mapWords_sep separates]
        exact ⟨later.1, congrArg (space :: ·) later.2⟩
    have isWord := areWords word mem_cons_self
    have breaks := breaks_joined separates words
    rw [intercalate_cons, map_cons, intercalate_cons, splitWords_word isWord breaks,
      mapWords_word isWord breaks, rest.1, rest.2]
    exact ⟨rfl, rfl⟩

/-- Words with one separator between them. -/
def Spaced (sep : α → Bool) (space : α) (text : List α) : Prop :=
  ∃ words : List (List α), (∀ w ∈ words, IsWord sep w) ∧ text = intercalate [space] words

/-- Behind a word: what is joined there is what stands there. -/
theorem spaced_of_intercalate_map (areWords : ∀ w, IsWord sep w → IsWord sep (f w)) (text : List α) :
    (intercalate [space] ((splitWords sep text).map f) = mapWords sep f text →
      text = intercalate [space] (splitWords sep text)) ∧
    (Breaks sep text → ((splitWords sep text).map f).flatMap (space :: ·) = mapWords sep f text →
      text = (splitWords sep text).flatMap (space :: ·)) := by
  induction text using word_induction sep with
  | nil => exact ⟨fun _ => rfl, fun _ _ => rfl⟩
  | space a rest separates ih =>
    rw [splitWords_sep separates, mapWords_sep separates]
    have words : ∀ w ∈ splitWords sep rest, IsWord sep w := isWord_of_mem_splitWords rest
    cases split : splitWords sep rest with
    | nil =>
      constructor
      · intro same
        cases same
      · intro _ same
        cases same
    | cons word later =>
      rw [split] at words ih
      constructor
      · -- a word cannot start with a separator
        intro same
        obtain ⟨nonempty, inside⟩ := areWords word (words word mem_cons_self)
        rw [map_cons, intercalate_cons] at same
        obtain ⟨b, tail, isCons⟩ := exists_cons_of_ne_nil nonempty
        rw [isCons] at same
        have bad : sep b = false := inside b (by rw [isCons]; exact mem_cons_self)
        rw [(List.cons.inj same).1, separates] at bad
        cases bad
      · intro _ same
        rw [map_cons, flatMap_cons, cons_append] at same
        obtain ⟨rfl, joined⟩ := List.cons.inj same
        rw [← intercalate_cons] at joined
        have whole := ih.1 joined
        rw [flatMap_cons, cons_append, ← intercalate_cons, ← whole]
  | word word rest isWord breaks ih =>
    rw [splitWords_word isWord breaks, mapWords_word isWord breaks]
    constructor
    · intro same
      rw [map_cons, intercalate_cons] at same
      have whole := ih.2 breaks (append_cancel_left same)
      rw [intercalate_cons, ← whole]
    · -- a word does not break
      intro breaksHere
      obtain ⟨b, tail, rfl⟩ := exists_cons_of_ne_nil isWord.1
      have separates : sep b = true := breaksHere b rfl
      rw [isWord.2 b mem_cons_self] at separates
      cases separates

/-- Splitting, rewriting and joining keeps the space of those texts only that are words with one
separator between them. -/
theorem intercalate_map_eq_mapWords_iff (separates : sep space = true)
    (areWords : ∀ w, IsWord sep w → IsWord sep (f w)) (text : List α) :
    intercalate [space] ((splitWords sep text).map f) = mapWords sep f text ↔ Spaced sep space text := by
  constructor
  · intro same
    exact ⟨splitWords sep text, isWord_of_mem_splitWords text, (spaced_of_intercalate_map areWords text).1 same⟩
  · rintro ⟨words, valid, rfl⟩
    obtain ⟨split, mapped⟩ := words_intercalate (f := f) separates valid
    rw [split, mapped]

end Joining

/-! ## Positions in an append-only list

`slice l i j` is the part of `l` between positions `i` and `j`.  Adjacent slices
concatenate and appending to the list never changes a slice it already had, so
a reader who keeps a position into a growing stream can be described by the
slices it was handed.  The newest `n` elements are Mathlib's `List.rtake`; two
lists with a common end agree on them.
-/

variable {α : Type u}

/-- The elements of `l` at positions `i, …, j - 1`. -/
def slice (l : List α) (i j : Nat) : List α := (l.drop i).take (j - i)

@[simp] theorem slice_self (l : List α) (i : Nat) : slice l i i = [] := by simp [slice]

@[simp] theorem slice_zero_length (l : List α) : slice l 0 l.length = l := by simp [slice]

theorem slice_append_slice (l : List α) {i j k : Nat} (ij : i ≤ j) (jk : j ≤ k) :
    slice l i j ++ slice l j k = slice l i k := by
  have total : k - i = (j - i) + (k - j) := by omega
  have start : i + (j - i) = j := by omega
  rw [slice, slice, slice, total, take_add, drop_drop, start]

/-- Appending to a list changes no slice the list already had. -/
theorem slice_append_left {l : List α} (newer : List α) {i j : Nat} (within : j ≤ l.length) :
    slice (l ++ newer) i j = slice l i j := by
  by_cases empty : j ≤ i
  · simp [slice, Nat.sub_eq_zero_of_le empty]
  · rw [slice, slice, drop_append_of_le_length (by omega),
      take_append_of_le_length (by rw [length_drop]; omega)]

/-- Behind a list of older elements, positions are shifted by its length. -/
theorem slice_append_right (older l : List α) (i j : Nat) :
    slice (older ++ l) (older.length + i) (older.length + j) = slice l i j := by
  rw [slice, drop_length_add_append, Nat.add_sub_add_left, slice]

/-- A word in the middle is the slice at its place. -/
theorem slice_middle (older word rest : List α) {i j : Nat} (start : older.length = i)
    (stop : i + word.length = j) : slice (older ++ (word ++ rest)) i j = word := by
  have shifted := slice_append_right older (word ++ rest) 0 word.length
  rw [slice_append_left rest (Nat.le_refl _), slice_zero_length, start, stop] at shifted
  exact shifted

variable (l : List α)

include l

theorem getElem?_slice {i j k : Nat} (within : i + k < j) : (slice l i j)[k]? = l[i + k]? := by
  rw [slice, getElem?_take_of_lt (by omega), getElem?_drop]

theorem slice_slice {i j a b : Nat} (within : i + b ≤ j) :
    slice (slice l i j) a b = slice l (i + a) (i + b) := by
  rw [slice, slice, slice, drop_take, take_take, drop_drop,
    Nat.add_sub_add_left, Nat.min_eq_left (by omega)]

theorem drop_slice (i j k : Nat) : (slice l i j).drop k = slice l (i + k) j := by
  rw [slice, slice, drop_take, drop_drop, Nat.sub_sub]

theorem slice_length_eq {i j : Nat} (within : j ≤ l.length) : (slice l i j).length = j - i := by
  rw [slice, length_take, length_drop]
  omega

/-- The slice up to the end is the newest elements. -/
theorem slice_length (i : Nat) : slice l i l.length = l.rtake (l.length - i) := by
  by_cases past : l.length ≤ i
  · rw [slice, Nat.sub_eq_zero_of_le past]
    simp
  · have position : l.length - (l.length - i) = i := by omega
    rw [slice, List.rtake, position, take_of_length_le (by rw [length_drop])]

theorem rtake_length (n : Nat) : (l.rtake n).length = min n l.length := by
  simp only [List.rtake, length_drop]
  omega

theorem rtake_suffix (n : Nat) : l.rtake n <:+ l := drop_suffix _ _

omit l

theorem rtake_of_length_le {l : List α} {n : Nat} (short : l.length ≤ n) : l.rtake n = l := by
  simp [List.rtake, Nat.sub_eq_zero_of_le short]

/-- Two lists with a common end agree on their newest elements, as long as both
have that many. -/
theorem rtake_eq_of_suffix {n : Nat} {short long : List α} (within : short <:+ long)
    (enough : n ≤ short.length) : short.rtake n = long.rtake n := by
  obtain ⟨older, rfl⟩ := within
  have position : (older ++ short).length - n = older.length + (short.length - n) := by
    simp only [length_append]
    omega
  simp only [List.rtake, position, drop_length_add_append]

theorem rtake_append_of_le {n : Nat} {older newer : List α} (enough : n ≤ newer.length) :
    (older ++ newer).rtake n = newer.rtake n :=
  (rtake_eq_of_suffix (suffix_append older newer) enough).symm

/-! ## Cutting a list into pieces -/

/-- The pieces of `size` elements, from the front; the last one may be shorter.
One piece takes at least one element, so a fuel of the list's length is enough. -/
def chunksWithin (size : Nat) : Nat → List α → List (List α)
  | 0, _ => []
  | fuel + 1, l => if l.isEmpty then [] else l.take size :: chunksWithin size fuel (l.drop size)

def chunks (size : Nat) (l : List α) : List (List α) := chunksWithin size l.length l

end Alera.Theory
