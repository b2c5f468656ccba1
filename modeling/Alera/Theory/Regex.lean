/-
# Alera.Theory.Regex -- leftmost-first matching and replacement

A backtracking matcher for the regular expressions that repeat single
characters.  `run r c` lists every way to match `r` at a cursor, the preferred one
first; a match is the head of the list.  Repetition and option are greedy.  A
cursor remembers the character before it, which is all a word boundary needs.

`replaceAll` rewrites the successive leftmost matches.  What proofs use is not
that function but the relation `Scans`: reading `x` in front of `y` writes `o`.
It composes (`Scans.append`), it does not care about what follows as long as
the matches in `x` do not (`Scans.extend`), and it answers two questions about its
output: where a text at its end comes from (`Scans.split_suffix`), and whether a
text in it was in the input before (`Scans.within_input`).

When two texts part, matching goes on alike as long as no class of the expression
takes the character where they part (`carries_aligned`); this is how a match is
shown not to depend on what follows.
-/
import Mathlib.Data.List.Basic
import Mathlib.Data.List.Forall2
import Mathlib.Data.List.Infix

namespace Alera.Theory

open List

set_option autoImplicit false

universe u

variable {α : Type u}

inductive Regex (α : Type u) where
  | eps
  /-- One character of a class. -/
  | one (p : α → Bool)
  | seq (r s : Regex α)
  /-- Ordered choice. -/
  | alt (r s : Regex α)
  /-- At most one character of a class, greedily. -/
  | opt (p : α → Bool)
  /-- Any number of characters of a class, greedily. -/
  | many (p : α → Bool)
  /-- A position between a word character and none. -/
  | boundary
  /-- The capturing group. -/
  | group (r : Regex α)

/-- A position in the text, and what the group captured so far. -/
structure Cursor (α : Type u) where
  prev : Option α
  rest : List α
  group : List α

/-- The character before what follows `xs`. -/
def lastOr (prev : Option α) (xs : List α) : Option α := xs.getLast?.or prev

variable (prev : Option α)

@[simp] theorem lastOr_nil : lastOr prev [] = prev := rfl

@[simp] theorem lastOr_cons (a : α) (xs : List α) :
    lastOr prev (a :: xs) = lastOr (some a) xs := by
  cases xs with
  | nil => rfl
  | cons b xs =>
    cases h : (b :: xs).getLast? with
    | none => simp at h
    | some c => rfl

theorem lastOr_of_ne_nil {xs : List α} (nonempty : xs ≠ []) :
    lastOr prev xs = xs.getLast? := by
  rw [lastOr, getLast?_eq_some_getLast nonempty]
  rfl

theorem lastOr_append (xs ys : List α) :
    lastOr prev (xs ++ ys) = lastOr (lastOr prev xs) ys := by
  induction xs generalizing prev with
  | nil => rfl
  | cons a xs ih => rw [cons_append, lastOr_cons, lastOr_cons, ih]

namespace Regex

/-- Every way to repeat `p`, the longest first. -/
def runMany (p : α → Bool) (group : List α) : Option α → List α → List (Cursor α)
  | prev, [] => [⟨prev, [], group⟩]
  | prev, a :: rest =>
    if p a then runMany p group (some a) rest ++ [⟨prev, a :: rest, group⟩]
    else [⟨prev, a :: rest, group⟩]

/-- The cursor behind one character of a class. -/
def runOne (p : α → Bool) (c : Cursor α) : List (Cursor α) :=
  match c.rest with
  | [] => []
  | a :: rest => if p a then [⟨some a, rest, c.group⟩] else []

/-- Every way to match, in order of preference. -/
def run (isWord : α → Bool) : Regex α → Cursor α → List (Cursor α)
  | .eps, c => [c]
  | .one p, c => runOne p c
  | .seq r s, c => (run isWord r c).flatMap (run isWord s)
  | .alt r s, c => run isWord r c ++ run isWord s c
  | .opt p, c => runOne p c ++ [c]
  | .many p, c => runMany p c.group c.prev c.rest
  | .boundary, c => if c.prev.any isWord = c.rest.head?.any isWord then [] else [c]
  | .group r, c => (run isWord r c).map fun d =>
    { d with group := c.rest.take (c.rest.length - d.rest.length) }

/-- A word, letter by letter; `letter c` is the class of characters that match `c`. -/
def spell (letter : α → α → Bool) : List α → Regex α
  | [] => .eps
  | c :: word => .seq (.one (letter c)) (spell letter word)

/-- One or more characters of a class, greedily. -/
def plus (p : α → Bool) : Regex α := .seq (.one p) (.many p)

/-! ## What a match reads -/

variable {isWord : α → Bool}

variable {p : α → Bool} {c d : Cursor α}

theorem mem_runOne (member : d ∈ runOne p c) :
    ∃ a, p a = true ∧ c.rest = a :: d.rest ∧ d.prev = some a ∧ d.group = c.group := by
  unfold runOne at member
  split at member
  · cases member
  · rename_i a rest read
    split at member
    · rename_i inside
      rw [mem_singleton.mp member]
      exact ⟨a, inside, read, rfl, rfl⟩
    · cases member

variable {prev : Option α}

theorem mem_runMany {group : List α} {rest : List α} (member : d ∈ runMany p group prev rest) :
    ∃ taken, rest = taken ++ d.rest ∧ d.prev = lastOr prev taken ∧ d.group = group := by
  induction rest generalizing prev with
  | nil =>
    rw [runMany, mem_singleton] at member
    rw [member]
    exact ⟨[], rfl, rfl, rfl⟩
  | cons a rest ih =>
    rw [runMany] at member
    split at member
    · rcases mem_append.mp member with more | none
      · obtain ⟨taken, read, prev, kept⟩ := ih more
        exact ⟨a :: taken, by rw [cons_append, ← read], by rw [lastOr_cons, prev], kept⟩
      · rw [mem_singleton.mp none]
        exact ⟨[], rfl, rfl, rfl⟩
    · rw [mem_singleton.mp member]
      exact ⟨[], rfl, rfl, rfl⟩

theorem mem_run_boundary (member : d ∈ run isWord .boundary c) :
    d = c ∧ c.prev.any isWord ≠ c.rest.head?.any isWord := by
  rw [run] at member
  split at member
  · cases member
  · rename_i parts
    exact ⟨mem_singleton.mp member, parts⟩

/-- The characters `r` reads at least. -/
def least : Regex α → Nat
  | .one _ => 1
  | .seq r s => least r + least s
  | .alt r s => min (least r) (least s)
  | .group r => least r
  | .eps | .opt _ | .many _ | .boundary => 0

variable {r : Regex α}

/-- Whether `r` holds the capturing group. -/
def captures : Regex α → Bool
  | .group _ => true
  | .seq r s | .alt r s => captures r || captures s
  | .eps | .one _ | .opt _ | .many _ | .boundary => false

/-- A match reads a piece of the text, and captures nothing without a group. -/
theorem mem_run (member : d ∈ run isWord r c) :
    ∃ taken, c.rest = taken ++ d.rest ∧ d.prev = lastOr c.prev taken ∧
      r.least ≤ taken.length ∧ (r.captures = false → d.group = c.group) := by
  induction r generalizing c d with
  | eps =>
    rw [mem_singleton.mp member]
    exact ⟨[], rfl, rfl, Nat.le_refl _, fun _ => rfl⟩
  | one p =>
    obtain ⟨a, _, read, last, kept⟩ := mem_runOne member
    exact ⟨[a], read, last, Nat.le_refl _, fun _ => kept⟩
  | seq r s ihr ihs =>
    obtain ⟨m, first, second⟩ := mem_flatMap.mp member
    obtain ⟨x, restX, prevX, leastX, keptX⟩ := ihr first
    obtain ⟨y, restY, prevY, leastY, keptY⟩ := ihs second
    refine ⟨x ++ y, ?_, ?_, ?_, fun plain => ?_⟩
    · rw [restX, restY, append_assoc]
    · rw [lastOr_append, ← prevX, prevY]
    · rw [length_append]
      exact Nat.add_le_add leastX leastY
    · obtain ⟨plainR, plainS⟩ := Bool.or_eq_false_iff.mp plain
      rw [keptY plainS, keptX plainR]
  | alt r s ihr ihs =>
    rcases mem_append.mp member with left | right
    · obtain ⟨taken, read, last, enough, kept⟩ := ihr left
      exact ⟨taken, read, last, (Nat.min_le_left _ _).trans enough,
        fun plain => kept (Bool.or_eq_false_iff.mp plain).1⟩
    · obtain ⟨taken, read, last, enough, kept⟩ := ihs right
      exact ⟨taken, read, last, (Nat.min_le_right _ _).trans enough,
        fun plain => kept (Bool.or_eq_false_iff.mp plain).2⟩
  | opt p =>
    rcases mem_append.mp member with one | none
    · obtain ⟨a, _, read, last, kept⟩ := mem_runOne one
      exact ⟨[a], read, last, Nat.zero_le _, fun _ => kept⟩
    · rw [mem_singleton.mp none]
      exact ⟨[], rfl, rfl, Nat.zero_le _, fun _ => rfl⟩
  | many p =>
    obtain ⟨taken, read, last, kept⟩ := mem_runMany member
    exact ⟨taken, read, last, Nat.zero_le _, fun _ => kept⟩
  | boundary =>
    rw [(mem_run_boundary member).1]
    exact ⟨[], rfl, rfl, Nat.zero_le _, fun _ => rfl⟩
  | group r ih =>
    obtain ⟨m, inner, rfl⟩ := mem_map.mp member
    obtain ⟨taken, read, last, enough, _⟩ := ih inner
    exact ⟨taken, read, last, enough, nofun⟩

/-- The group holds what its expression read. -/
theorem mem_run_group (member : d ∈ run isWord (.group r) c) :
    ∃ m ∈ run isWord r c, c.rest = d.group ++ m.rest ∧ d.rest = m.rest := by
  obtain ⟨m, inner, rfl⟩ := mem_map.mp member
  obtain ⟨taken, read, _⟩ := mem_run inner
  refine ⟨m, inner, ?_, rfl⟩
  have group : c.rest.take (c.rest.length - m.rest.length) = taken := by
    rw [read, length_append, Nat.add_sub_cancel, take_left]
  rw [group, read]

/-! ### Words -/

/-- `text` is `word` up to what `letter` identifies. -/
abbrev Spells (letter : α → α → Bool) (word text : List α) : Prop :=
  List.Forall₂ (fun c a => letter c a = true) word text

variable {letter : α → α → Bool} {word : List α}

theorem mem_run_spell (member : d ∈ run isWord (spell letter word) c) :
    ∃ text, Spells letter word text ∧ c.rest = text ++ d.rest := by
  induction word generalizing c with
  | nil =>
    rw [mem_singleton.mp member]
    exact ⟨[], .nil, rfl⟩
  | cons x word ih =>
    obtain ⟨m, first, later⟩ := mem_flatMap.mp member
    obtain ⟨a, same, read, _⟩ := mem_runOne first
    obtain ⟨text, spells, rest⟩ := ih later
    exact ⟨a :: text, .cons same spells, by rw [read, rest, cons_append]⟩

theorem run_spell {text : List α} (spells : Spells letter word text) (prev : Option α)
    (rest group : List α) :
    run isWord (spell letter word) ⟨prev, text ++ rest, group⟩ =
      [⟨lastOr prev text, rest, group⟩] := by
  induction spells generalizing prev with
  | nil => rfl
  | @cons x a word text same _ ih =>
    show (runOne (letter x) ⟨prev, a :: (text ++ rest), group⟩).flatMap _ = _
    have one : runOne (letter x) ⟨prev, a :: (text ++ rest), group⟩ =
        [⟨some a, text ++ rest, group⟩] := if_pos same
    rw [one, flatMap_singleton, ih, lastOr_cons]

/-! ### Repetition -/

/-- The cursor behind the longest run of `p`. -/
def skip (p : α → Bool) (c : Cursor α) : Cursor α :=
  ⟨lastOr c.prev (c.rest.takeWhile p), c.rest.dropWhile p, c.group⟩

theorem runMany_head (p : α → Bool) (group : List α) (prev : Option α) (rest : List α) :
    (runMany p group prev rest).head? = some (skip p ⟨prev, rest, group⟩) := by
  induction rest generalizing prev with
  | nil => rfl
  | cons a rest ih =>
    rw [runMany]
    by_cases inside : p a
    · simp [inside, ih, skip]
    · simp [inside, skip]

variable {a : α}

/-- One or more of `p` reads the longest run, if there is one. -/
theorem run_plus_head (inside : p a = true) (prev : Option α) (rest group : List α) :
    (run isWord (plus p) ⟨prev, a :: rest, group⟩).head? =
      some (skip p ⟨prev, a :: rest, group⟩) := by
  have one : runOne p ⟨prev, a :: rest, group⟩ = [⟨some a, rest, group⟩] := if_pos inside
  show ((runOne p ⟨prev, a :: rest, group⟩).flatMap (run isWord (.many p))).head? = _
  rw [one, flatMap_singleton]
  show (runMany p group (some a) rest).head? = _
  rw [runMany_head]
  simp [skip, inside]

/-- Repetition in front of something that cannot start with what it repeats. -/
theorem run_seq_many {s : Regex α}
    (fails : ∀ (prev : Option α) (a : α) (rest group : List α), p a = true → run isWord s ⟨prev, a :: rest, group⟩ = [])
    (c : Cursor α) :
    run isWord (.seq (.many p) s) c = run isWord s (skip p c) := by
  obtain ⟨prev, rest, group⟩ := c
  show (runMany p group prev rest).flatMap (run isWord s) = _
  induction rest generalizing prev with
  | nil => simp [runMany, skip]
  | cons a rest ih =>
    rw [runMany]
    by_cases inside : p a
    · simp [inside, ih, skip, fails prev a rest group inside]
    · simp [inside, skip]

/-! ## Texts that part -/

/-- No class of `r` takes `a`. -/
def Avoids (a : α) : Regex α → Prop
  | .one p | .opt p | .many p => p a = false
  | .seq r s | .alt r s => Avoids a r ∧ Avoids a s
  | .group r => Avoids a r
  | .eps | .boundary => True

/-- Two cursors that are as far from the place where their texts go on with `y` and
with `z`. -/
inductive Aligned (y z : List α) : Cursor α → Cursor α → Prop where
  | mk (prev : Option α) (x group : List α) : Aligned y z ⟨prev, x ++ y, group⟩ ⟨prev, x ++ z, group⟩

variable {x y z : List α}

theorem Aligned.inner {y' z' : List α} (aligned : Aligned y' z' c d) (left : y' = x ++ y)
    (right : z' = x ++ z) : Aligned y z c d := by
  obtain ⟨prev, x', group⟩ := aligned
  rw [left, right, ← append_assoc, ← append_assoc]
  exact .mk prev (x' ++ x) group

/-- From cursors in relation `A`, `r` runs to cursors in relation `B`. -/
def Carries (isWord : α → Bool) (A B : Cursor α → Cursor α → Prop) (r : Regex α) : Prop :=
  ∀ ⦃c d⦄, A c d → List.Forall₂ B (run isWord r c) (run isWord r d)

theorem Carries.seq {A B C : Cursor α → Cursor α → Prop} {s : Regex α}
    (first : Carries isWord A B r) (second : Carries isWord B C s) :
    Carries isWord A C (.seq r s) :=
  fun _ _ start => rel_flatMap (first start) second

/-- No class takes the character the text goes on with, if it goes on. -/
def Blocked (r : Regex α) (y : List α) : Prop := ∀ a, y.head? = some a → r.Avoids a

variable {y z : List α}

theorem runOne_blocked (blocked : ∀ a, y.head? = some a → p a = false) (prev : Option α)
    (group : List α) : runOne p ⟨prev, y, group⟩ = [] := by
  cases y with
  | nil => rfl
  | cons a y => simp [runOne, blocked a rfl]

theorem runMany_blocked (blocked : ∀ a, y.head? = some a → p a = false) (prev : Option α)
    (group : List α) : runMany p group prev y = [⟨prev, y, group⟩] := by
  cases y with
  | nil => rfl
  | cons a y => simp [runMany, blocked a rfl]

theorem runOne_aligned (blockedY : ∀ a, y.head? = some a → p a = false)
    (blockedZ : ∀ a, z.head? = some a → p a = false) (aligned : Aligned y z c d) :
    List.Forall₂ (Aligned y z) (runOne p c) (runOne p d) := by
  obtain ⟨prev, x, group⟩ := aligned
  cases x with
  | nil =>
    rw [nil_append, nil_append, runOne_blocked blockedY, runOne_blocked blockedZ]
    exact .nil
  | cons a x =>
    simp only [runOne, cons_append]
    split
    · exact .cons (.mk (some a) x group) .nil
    · exact .nil

theorem runMany_aligned (blockedY : ∀ a, y.head? = some a → p a = false)
    (blockedZ : ∀ a, z.head? = some a → p a = false) (prev : Option α) (x group : List α) :
    List.Forall₂ (Aligned y z) (runMany p group prev (x ++ y)) (runMany p group prev (x ++ z)) := by
  induction x generalizing prev with
  | nil =>
    rw [nil_append, nil_append, runMany_blocked blockedY, runMany_blocked blockedZ]
    exact .cons (.mk prev [] group) .nil
  | cons a x ih =>
    have here : Aligned y z ⟨prev, a :: (x ++ y), group⟩ ⟨prev, a :: (x ++ z), group⟩ :=
      .mk prev (a :: x) group
    simp only [runMany, cons_append]
    split
    · exact rel_append (ih (some a)) (.cons here .nil)
    · exact .cons here .nil

/-- **Where the texts part, nothing is read**: an expression that takes neither of the
next characters, of which both or none are word characters, keeps the cursors aligned. -/
theorem carries_aligned (blockedY : r.Blocked y) (blockedZ : r.Blocked z)
    (alike : y.head?.any isWord = z.head?.any isWord) :
    Carries isWord (Aligned y z) (Aligned y z) r := by
  induction r with
  | eps => exact fun _ _ aligned => .cons aligned .nil
  | one p => exact fun _ _ aligned => runOne_aligned blockedY blockedZ aligned
  | seq r s ihr ihs =>
    exact Carries.seq (ihr (fun a next => (blockedY a next).1) (fun a next => (blockedZ a next).1))
      (ihs (fun a next => (blockedY a next).2) (fun a next => (blockedZ a next).2))
  | alt r s ihr ihs =>
    exact fun _ _ aligned => rel_append
      (ihr (fun a next => (blockedY a next).1) (fun a next => (blockedZ a next).1) aligned)
      (ihs (fun a next => (blockedY a next).2) (fun a next => (blockedZ a next).2) aligned)
  | opt p =>
    exact fun _ _ aligned =>
      rel_append (runOne_aligned blockedY blockedZ aligned) (.cons aligned .nil)
  | many p =>
    rintro _ _ ⟨prev, x, group⟩
    exact runMany_aligned blockedY blockedZ prev x group
  | boundary =>
    rintro _ _ ⟨prev, x, group⟩
    have next : (x ++ y).head?.any isWord = (x ++ z).head?.any isWord := by
      cases x with
      | nil => exact alike
      | cons a x => rfl
    simp only [run, next]
    split
    · exact .nil
    · exact .cons (.mk prev x group) .nil
  | group r ih =>
    rintro _ _ ⟨prev, x, group⟩
    refine rel_map ?_ (ih blockedY blockedZ (.mk prev x group))
    rintro _ _ ⟨prev', x', group'⟩
    simp only [length_append, Nat.add_sub_add_right]
    rw [take_append_of_le_length (Nat.sub_le _ _), take_append_of_le_length (Nat.sub_le _ _)]
    exact .mk prev' x' _

/-- In particular where one text ends and the other goes on. -/
theorem carries_before (avoids : r.Avoids a) (y z : List α) :
    Carries isWord (Aligned (a :: y) (a :: y ++ z)) (Aligned (a :: y) (a :: y ++ z)) r := by
  refine carries_aligned ?_ ?_ rfl
  · rintro a ⟨⟩
    exact avoids
  · rintro a ⟨⟩
    exact avoids

theorem avoids_spell (apart : ∀ c ∈ word, letter c a = false) : (spell letter word).Avoids a := by
  induction word with
  | nil => trivial
  | cons c word ih => exact ⟨apart c (.head _), ih fun c' member => apart c' (.tail _ member)⟩

/-! ## Replacement -/

/-- The preferred match at a position, if it reads anything. -/
def matchAt (isWord : α → Bool) (r : Regex α) (prev : Option α) (input : List α) :
    Option (Cursor α) :=
  (run isWord r ⟨prev, input, []⟩).head?.filter fun c => c.rest.length < input.length

variable {input : List α}

theorem mem_of_matchAt (found : matchAt isWord r prev input = some c) :
    c ∈ run isWord r ⟨prev, input, []⟩ :=
  mem_of_head? (Option.filter_eq_some_iff.mp found).1

theorem matchAt_eq_some (found : matchAt isWord r prev input = some c) :
    ∃ taken, taken ≠ [] ∧ input = taken ++ c.rest ∧ c.prev = lastOr prev taken := by
  obtain ⟨_, shorter⟩ := Option.filter_eq_some_iff.mp found
  obtain ⟨taken, read, last, _⟩ := mem_run (mem_of_matchAt found)
  refine ⟨taken, ?_, read, last⟩
  rintro rfl
  have same : input = c.rest := read
  simp [same] at shorter

/-- Rewrite the successive matches; `fuel` bounds the characters left to read. -/
def replaceFrom (isWord : α → Bool) (r : Regex α) (write : List α → List α) :
    Nat → Option α → List α → List α
  | 0, _, input => input
  | _ + 1, _, [] => []
  | fuel + 1, prev, a :: rest =>
    match matchAt isWord r prev (a :: rest) with
    | some c => write c.group ++ replaceFrom isWord r write fuel c.prev c.rest
    | none => a :: replaceFrom isWord r write fuel (some a) rest

/-- Rewrite every match in a text, leftmost first. -/
def replaceAll (isWord : α → Bool) (r : Regex α) (write : List α → List α) (input : List α) :
    List α :=
  replaceFrom isWord r write input.length none input

/-- Reading `x` in front of `y`, with `prev` before it, writes `o`. -/
inductive Scans (isWord : α → Bool) (r : Regex α) (write : List α → List α) (y : List α) :
    Option α → List α → List α → Prop where
  | done (prev : Option α) : Scans isWord r write y prev [] []
  | copy {prev : Option α} {a : α} {x o : List α}
      (unmatched : matchAt isWord r prev (a :: (x ++ y)) = none)
      (later : Scans isWord r write y (some a) x o) : Scans isWord r write y prev (a :: x) (a :: o)
  | hit {prev : Option α} {taken x o group : List α} (nonempty : taken ≠ [])
      (found : matchAt isWord r prev (taken ++ (x ++ y)) = some ⟨lastOr prev taken, x ++ y, group⟩)
      (later : Scans isWord r write y (lastOr prev taken) x o) :
      Scans isWord r write y prev (taken ++ x) (write group ++ o)

variable {r : Regex α} {write : List α → List α}

theorem replaceFrom_scans (fuel : Nat) (prev : Option α) (input : List α)
    (enough : input.length ≤ fuel) :
    Scans isWord r write [] prev input (replaceFrom isWord r write fuel prev input) := by
  induction fuel generalizing prev input with
  | zero =>
    rw [length_eq_zero_iff.mp (Nat.le_zero.mp enough)]
    exact .done prev
  | succ fuel ih =>
    cases input with
    | nil => exact .done prev
    | cons a rest =>
      rw [replaceFrom]
      cases found : matchAt isWord r prev (a :: rest) with
      | none =>
        refine .copy (by rwa [append_nil]) (ih (some a) rest ?_)
        exact Nat.le_of_succ_le_succ enough
      | some c =>
        obtain ⟨taken, nonempty, read, last⟩ := matchAt_eq_some found
        have positive := length_pos_iff.mpr nonempty
        have shorter : c.rest.length ≤ fuel := by
          have total := congrArg List.length read
          rw [length_append] at total
          omega
        obtain ⟨prev', rest', group⟩ := c
        subst last
        rw [read]
        refine .hit nonempty ?_ (ih _ rest' shorter)
        rw [append_nil, ← read]
        exact found

theorem replaceAll_scans (input : List α) :
    Scans isWord r write [] none input (replaceAll isWord r write input) :=
  replaceFrom_scans _ _ _ (Nat.le_refl _)

variable {o : List α}

/-- Reading nothing writes nothing. -/
theorem Scans.nil_eq (scans : Scans isWord r write y prev [] o) : o = [] := by
  generalize read : ([] : List α) = x at scans
  cases scans with
  | done => rfl
  | copy unmatched later => cases read
  | hit nonempty found later =>
    exact absurd (append_eq_nil_iff.mp read.symm).1 nonempty

/-- What the first turn of a scan did. -/
theorem Scans.cons_cases {rest : List α} (scans : Scans isWord r write y prev (a :: rest) o) :
    (matchAt isWord r prev (a :: (rest ++ y)) = none ∧
      ∃ o', o = a :: o' ∧ Scans isWord r write y (some a) rest o') ∨
    ∃ taken x group o', taken ≠ [] ∧ a :: rest = taken ++ x ∧
      matchAt isWord r prev (a :: (rest ++ y)) = some ⟨lastOr prev taken, x ++ y, group⟩ ∧
      o = write group ++ o' ∧ Scans isWord r write y (lastOr prev taken) x o' := by
  generalize read : a :: rest = z at scans
  cases scans with
  | done => cases read
  | copy unmatched later =>
    cases read
    exact .inl ⟨unmatched, _, rfl, later⟩
  | hit nonempty found later =>
    refine .inr ⟨_, _, _, _, nonempty, rfl, ?_, rfl, later⟩
    rw [← cons_append, read, append_assoc]
    exact found

variable {o' : List α}

/-- Scanning has one result. -/
theorem Scans.eq (first : Scans isWord r write y prev x o)
    (second : Scans isWord r write y prev x o') : o = o' := by
  induction first generalizing o' with
  | done prev => exact second.nil_eq.symm
  | copy unmatched later ih =>
    rcases second.cons_cases with ⟨_, _, rfl, other⟩ | ⟨_, _, _, _, _, _, found, _⟩
    · rw [ih other]
    · rw [unmatched] at found
      cases found
  | @hit prev taken x o group nonempty found later ih =>
    obtain ⟨a, taken, rfl⟩ := exists_cons_of_ne_nil nonempty
    rw [cons_append] at second found
    rw [← append_assoc] at found
    rcases second.cons_cases with ⟨unmatched, _⟩ | ⟨taken', x', group', _, _, read, other, rfl, more⟩
    · rw [found] at unmatched
      cases unmatched
    · rw [found] at other
      injection other with same
      injection same with last rest grouped
      subst grouped
      cases append_cancel_right rest
      rw [← last] at more
      rw [ih more]

theorem replaceAll_eq (scans : Scans isWord r write [] none input o) :
    replaceAll isWord r write input = o :=
  (replaceAll_scans input).eq scans

variable {x' : List α}

/-- Scans of adjacent texts compose. -/
theorem Scans.append (first : Scans isWord r write (x' ++ y) prev x o)
    (second : Scans isWord r write y (lastOr prev x) x' o') :
    Scans isWord r write y prev (x ++ x') (o ++ o') := by
  induction first with
  | done prev => exact second
  | copy unmatched later ih =>
    rw [lastOr_cons] at second
    rw [cons_append]
    refine .copy ?_ (ih second)
    rw [append_assoc]
    exact unmatched
  | hit nonempty found later ih =>
    rw [lastOr_append] at second
    rw [append_assoc, append_assoc]
    refine .hit nonempty ?_ (ih second)
    rw [append_assoc]
    exact found

/-- The two parts of a whole text. -/
theorem Scans.append_last (first : Scans isWord r write x' prev x o)
    (second : Scans isWord r write [] (lastOr prev x) x' o') :
    Scans isWord r write [] prev (x ++ x') (o ++ o') :=
  Scans.append (by rwa [append_nil]) second

/-- Every text can be scanned. -/
theorem exists_scans (isWord : α → Bool) (r : Regex α) (write : List α → List α) (prev : Option α)
    (x : List α) : ∃ o, Scans isWord r write [] prev x o :=
  ⟨_, replaceFrom_scans _ prev x (Nat.le_refl _)⟩

/-- The same cursor with more text at the end. -/
def lengthen (z : List α) (c : Cursor α) : Cursor α := { c with rest := c.rest ++ z }

/-- Matching does not depend on text that is not read. -/
theorem matchAt_extend {A : Cursor α → Cursor α → Prop}
    (carries : Carries isWord A (Aligned [] z) r)
    (start : A ⟨prev, input, []⟩ ⟨prev, input ++ z, []⟩) :
    matchAt isWord r prev (input ++ z) = (matchAt isWord r prev input).map (lengthen z) := by
  have runs := carries start
  unfold matchAt
  generalize run isWord r ⟨prev, input, []⟩ = short at runs ⊢
  generalize run isWord r ⟨prev, input ++ z, []⟩ = long at runs ⊢
  cases runs with
  | nil => rfl
  | cons aligned _ =>
    obtain ⟨prev', x, group⟩ := aligned
    simp only [head?_cons, Option.filter_some, length_append, append_nil, Nat.add_lt_add_iff_right]
    split <;> rfl

/-- Following text that changes no match changes nothing. -/
theorem Scans.extend (scans : Scans isWord r write y prev x o)
    (unread : ∀ u v, x = u ++ v → v ≠ [] → matchAt isWord r (lastOr prev u) (v ++ y ++ z) = (matchAt isWord r (lastOr prev u) (v ++ y)).map (lengthen z)) :
    Scans isWord r write (y ++ z) prev x o := by
  induction scans with
  | done prev => exact .done prev
  | @copy prev a x o unmatched later ih =>
    have here := unread [] (a :: x) rfl (cons_ne_nil _ _)
    rw [lastOr_nil, cons_append, unmatched, cons_append, append_assoc] at here
    refine .copy here (ih ?_)
    rintro u v rfl nonempty
    rw [← lastOr_cons prev]
    exact unread (a :: u) v rfl nonempty
  | @hit prev taken x o group nonempty found later ih =>
    have here := unread [] (taken ++ x) rfl (by simp [nonempty])
    rw [lastOr_nil, append_assoc taken, found, append_assoc, append_assoc] at here
    refine .hit nonempty (here.trans ?_) (ih ?_)
    · simp [lengthen]
    · rintro u v rfl nonempty'
      rw [← lastOr_append]
      exact unread (taken ++ u) v (append_assoc ..).symm nonempty'

/-- A text in which nothing matches is copied. -/
theorem Scans.copies
    (unmatched : ∀ u a v, x = u ++ a :: v → matchAt isWord r (lastOr prev u) (a :: (v ++ y)) = none) :
    Scans isWord r write y prev x x := by
  induction x generalizing prev with
  | nil => exact .done prev
  | cons a x ih =>
    refine .copy (unmatched [] a x rfl) (ih ?_)
    rintro u c v rfl
    rw [← lastOr_cons prev]
    exact unmatched (a :: u) c v rfl

/-- A scan copies the first part of a text, or there is a first match in it. -/
theorem Scans.first_hit (scans : Scans isWord r write y prev (x ++ x') o) :
    (∃ o', o = x ++ o' ∧ Scans isWord r write y (lastOr prev x) x' o') ∨
    ∃ u v taken rest group o', x = u ++ v ∧ v ≠ [] ∧ v ++ x' = taken ++ rest ∧
      matchAt isWord r (lastOr prev u) (taken ++ (rest ++ y)) =
        some ⟨lastOr (lastOr prev u) taken, rest ++ y, group⟩ ∧
      o = u ++ (write group ++ o') ∧
      Scans isWord r write y (lastOr (lastOr prev u) taken) rest o' := by
  induction x generalizing prev o with
  | nil => exact .inl ⟨o, rfl, scans⟩
  | cons a x ih =>
    rcases scans.cons_cases with
      ⟨_, o', rfl, later⟩ | ⟨taken, rest, group, o', _, read, found, rfl, later⟩
    · rcases ih later with
        ⟨o'', rfl, after⟩ | ⟨u, v, taken, rest, group, o'', rfl, nonempty, read, found, rfl, after⟩
      · exact .inl ⟨o'', rfl, by rwa [lastOr_cons]⟩
      · refine .inr ⟨a :: u, v, taken, rest, group, o'', rfl, nonempty, read, ?_, rfl, ?_⟩
        · rwa [lastOr_cons]
        · rwa [lastOr_cons]
    · refine .inr ⟨[], a :: x, taken, rest, group, o', rfl, cons_ne_nil _ _, read, ?_, rfl, later⟩
      rw [← append_assoc, ← read]
      exact found

/-! ### Where the output comes from -/

variable {t l : List α}

theorem begins_of_separator {r : List α} {c : α} (apart : c ∉ t) (begins : t <+: l ++ c :: r) :
    t <+: l := by
  rcases prefix_or_prefix_of_prefix begins
    (show l ++ [c] <+: l ++ c :: r from ⟨r, by simp⟩) with short | long
  · rcases prefix_concat_iff.mp short with whole | part
    · exact absurd (by rw [whole]; simp) apart
    · exact part
  · exact absurd (long.subset (by simp)) apart

/-- A text without `c` lies on one side of it. -/
theorem infix_of_separator {r : List α} {c : α} (apart : c ∉ t) (within : t <:+: l ++ c :: r) :
    t <:+: l ∨ t <:+: r := by
  induction l with
  | nil =>
    rcases infix_cons_iff.mp within with begins | later
    · exact .inl (begins_of_separator (l := []) apart begins).isInfix
    · exact .inr later
  | cons a l ih =>
    rcases infix_cons_iff.mp within with begins | later
    · exact .inl (begins_of_separator apart begins).isInfix
    · exact (ih later).imp (·.trans (suffix_cons a l).isInfix) id

/-- A text without the characters of a gap lies on one side of it. -/
theorem infix_of_gap {w r : List α} (gap : w ≠ []) (apart : ∀ a ∈ w, a ∉ t)
    (within : t <:+: l ++ (w ++ r)) : t <:+: l ∨ t <:+: r := by
  induction w generalizing l with
  | nil => exact absurd rfl gap
  | cons a w ih =>
    rcases infix_of_separator (apart a (.head _)) within with left | right
    · exact .inl left
    · by_cases last : w = []
      · rw [last] at right
        exact .inr right
      · rcases ih (l := []) last (fun b member => apart b (.tail _ member)) right with empty | later
        · exact .inl (empty.trans nil_infix)
        · exact .inr later

/-- Every replacement ends with `mark`. -/
def EndsWith (write : List α → List α) (mark : α) : Prop := ∀ group, ∃ head, write group = head ++ [mark]

variable {mark : α}

/-- Output without the mark was copied. -/
theorem Scans.eq_of_unmarked (marks : EndsWith write mark) (scans : Scans isWord r write y prev x o)
    (unmarked : mark ∉ o) :
    x = o := by
  induction scans with
  | done prev => rfl
  | copy unmatched later ih => rw [ih fun member => unmarked (.tail _ member)]
  | @hit prev taken x o group nonempty found later ih =>
    obtain ⟨head, written⟩ := marks group
    exact absurd (by rw [written]; simp) unmarked

/-- The output ends with the mark or as the input does. -/
theorem Scans.last (marks : EndsWith write mark) (scans : Scans isWord r write y prev x o)
    {P : Option α → Prop} (marked : P (some mark)) (before : Option α) (same : P (lastOr before x)) :
    P (lastOr before o) := by
  induction scans generalizing before with
  | done prev => exact same
  | copy unmatched later ih =>
    rw [lastOr_cons] at same ⊢
    exact ih _ same
  | @hit prev taken x o group nonempty found later ih =>
    obtain ⟨head, written⟩ := marks group
    rw [lastOr_append, written, lastOr_append]
    apply ih
    by_cases empty : x = []
    · rwa [empty]
    · rw [lastOr_append, lastOr_of_ne_nil _ empty] at same
      rwa [lastOr_of_ne_nil _ empty]

/-- A text without the mark at the end of the output was at the end of the input, and
the scan copied it. -/
theorem Scans.split_suffix {b : List α} (marks : EndsWith write mark) (unmarked : mark ∉ b)
    (scans : Scans isWord r write [] prev x (o ++ b)) :
    ∃ x', x = x' ++ b ∧ Scans isWord r write b prev x' o ∧
      Scans isWord r write [] (lastOr prev x') b b := by
  generalize total : o ++ b = out at scans
  induction scans generalizing o with
  | done prev =>
    obtain ⟨rfl, rfl⟩ := append_eq_nil_iff.mp total
    exact ⟨[], rfl, .done prev, .done prev⟩
  | @copy prev a x out unmatched later ih =>
    cases o with
    | nil =>
      -- The whole output is `b`.
      have whole : b = a :: out := total
      have scans : Scans isWord r write [] prev (a :: x) (a :: out) := .copy unmatched later
      have copied := scans.eq_of_unmarked marks (whole ▸ unmarked)
      exact ⟨[], copied.trans whole.symm, .done prev, whole ▸ copied ▸ scans⟩
    | cons a' o =>
      cases total
      obtain ⟨x', rfl, before, after⟩ := ih rfl
      refine ⟨a :: x', rfl, .copy ?_ before, ?_⟩
      · rwa [append_nil] at unmatched
      · rwa [lastOr_cons]
  | @hit prev taken x out group nonempty found later ih =>
    obtain ⟨head, written⟩ := marks group
    -- `b` has no mark, so it lies behind the replacement.
    obtain ⟨o', rfl, rfl⟩ : ∃ o', o = write group ++ o' ∧ out = o' ++ b := by
      rcases append_eq_append_iff.mp total with ⟨z, wrote, rest⟩ | ⟨z, split, rest⟩
      · cases z using List.reverseRecOn with
        | nil => exact ⟨[], by simpa using wrote.symm, by simpa using rest.symm⟩
        | append_singleton z c =>
          rw [written, ← append_assoc] at wrote
          cases (append_inj' wrote rfl).2
          exact absurd (by rw [rest]; simp) unmarked
      · exact ⟨z, split, rest⟩
    obtain ⟨x', rfl, before, after⟩ := ih rfl
    refine ⟨taken ++ x', (append_assoc ..).symm, .hit nonempty ?_ before, ?_⟩
    · rwa [append_nil] at found
    · rwa [lastOr_append]

/-- A replacement neither continues nor contains `t`, except where the text it
replaces did or spelled a text that `Turns` into `t`. -/
structure Faithful (isWord : α → Bool) (r : Regex α) (write : List α → List α) (t : List α)
    (Turns : List α → Prop) : Prop where
  /-- The part `t'` of `t` that would start a replacement, with the part `u` before it. -/
  starts : ∀ {prev : Option α} {taken rest group : List α},
    matchAt isWord r prev (taken ++ rest) = some ⟨lastOr prev taken, rest, group⟩ →
    ∀ u t' o, t = u ++ t' → (u ≠ [] → prev = u.getLast?) → t' <+: write group ++ o →
    t' <+: taken ∨ ∃ t₀, Turns t₀ ∧ t₀ <+: u ++ taken
  inside : ∀ {prev : Option α} {taken rest group : List α},
    matchAt isWord r prev (taken ++ rest) = some ⟨lastOr prev taken, rest, group⟩ →
    ∀ o, t <:+: write group ++ o → t <:+: taken ∨ t <:+: o ∨ ∃ t₀, Turns t₀ ∧ t₀ <:+: taken

variable {t : List α} {Turns : List α → Prop}

/-- The rest of a copied beginning of `t` is copied too. -/
theorem Scans.begins_input (faithful : Faithful isWord r write t Turns)
    (scans : Scans isWord r write y prev x o) (after : List α) :
    ∀ u t', t = u ++ t' → (u ≠ [] → prev = u.getLast?) → t' <+: o ++ after →
      t' <+: x ++ after ∨ ∃ t₀, Turns t₀ ∧ t₀ <+: u ++ (x ++ after) := by
  induction scans with
  | done prev => exact fun u t' _ _ begins => .inl begins
  | @copy prev a x o unmatched later ih =>
    intro u t' split last begins
    cases t' with
    | nil => exact .inl nil_prefix
    | cons c t' =>
      rw [cons_append] at begins ⊢
      obtain ⟨rfl, continues⟩ := cons_prefix_cons.mp begins
      have longer : u ++ c :: (x ++ after) = u ++ [c] ++ (x ++ after) := by simp
      rw [cons_prefix_cons, longer]
      refine (ih (u ++ [c]) t' ?_ ?_ continues).imp (fun read => ⟨rfl, read⟩) id
      · rw [split, append_assoc]; rfl
      · intro _
        rw [getLast?_append]
        rfl
  | @hit prev taken x o group nonempty found later ih =>
    intro u t' split last begins
    rw [append_assoc] at begins ⊢
    rcases faithful.starts found u t' (o ++ after) split last begins with
      read | ⟨t₀, turns, read⟩
    · exact .inl (read.trans (prefix_append _ _))
    · refine .inr ⟨t₀, turns, read.trans ?_⟩
      rw [← append_assoc]
      exact prefix_append _ _

/-- **A faithful scan creates nothing**: a text in its output was in its input, or one
that turns into it was. -/
theorem Scans.within_input (faithful : Faithful isWord r write t Turns)
    (scans : Scans isWord r write y prev x o) (after : List α) (within : t <:+: o ++ after) :
    t <:+: x ++ after ∨ ∃ t₀, Turns t₀ ∧ t₀ <:+: x ++ after := by
  induction scans with
  | done prev => exact .inl within
  | @copy prev a x o unmatched later ih =>
    rcases infix_cons_iff.mp within with begins | inside
    · have copied : Scans isWord r write y prev (a :: x) (a :: o) := .copy unmatched later
      exact (copied.begins_input faithful after [] t rfl (fun empty => absurd rfl empty) begins).imp
        List.IsPrefix.isInfix fun ⟨t₀, turns, read⟩ => ⟨t₀, turns, read.isInfix⟩
    · have later : x ++ after <:+: a :: x ++ after := (suffix_cons a _).isInfix
      exact (ih inside).imp (·.trans later) fun ⟨t₀, turns, read⟩ => ⟨t₀, turns, read.trans later⟩
  | @hit prev taken x o group nonempty found later ih =>
    have first : taken <:+: taken ++ x ++ after := by
      rw [append_assoc]
      exact (prefix_append _ _).isInfix
    have second : x ++ after <:+: taken ++ x ++ after := by
      rw [append_assoc]
      exact (suffix_append _ _).isInfix
    rw [append_assoc] at within
    rcases faithful.inside found (o ++ after) within with
      replaced | inside | ⟨t₀, turns, replaced⟩
    · exact .inl (replaced.trans first)
    · exact (ih inside).imp (·.trans second) fun ⟨t₀, turns, read⟩ =>
        ⟨t₀, turns, read.trans second⟩
    · exact .inr ⟨t₀, turns, replaced.trans first⟩

end Regex

end Alera.Theory
