/-
# Alera.Workbench.Navigation -- back and forward between worktrees

`WorktreeNavigationHistory` (`workbench/domain/worktree_navigation_history.dart`) over targets of
which it only asks whether two are equal.  From the oldest entry to the newest the history is one
list, in which the current target has its place (`entries`).  Recording and leaving never put a
target beside itself, and going back or forward only moves the place.  Pruning does not look at the
neighbours of what it removes, so it can bring two entries of one target together.
-/
import Alera.Theory.Runs
import Mathlib.Data.List.Chain

namespace Alera.Workbench

open Theory List

set_option autoImplicit false

variable {Target : Type} [DecidableEq Target]

/-- The last entries of `back` and `forward` are the nearest. -/
structure WorktreeNavigationHistory (Target : Type) where
  back : List Target := []
  forward : List Target := []
  current : Option Target := none
deriving DecidableEq

namespace WorktreeNavigationHistory

variable (h : WorktreeNavigationHistory Target) (isValid : Target → Bool) (target : Target)

def record : WorktreeNavigationHistory Target :=
  if h.current = some target then h
  else if h.current = none ∧ h.back.getLast? = some target then ⟨h.back.dropLast, [], some target⟩
  else ⟨h.back ++ h.current.toList, [], some target⟩

def leaveCurrent : WorktreeNavigationHistory Target :=
  match h.current with
  | none => h
  | some current => ⟨h.back ++ [current], [], none⟩

def prune : WorktreeNavigationHistory Target :=
  ⟨h.back.filter isValid, h.forward.filter isValid, h.current.filter isValid⟩

/-- `commitBack`, which throws if another target is the nearest. -/
def commitBack : Option (WorktreeNavigationHistory Target) :=
  if h.back.getLast? = some target then
    some ⟨h.back.dropLast, h.forward ++ h.current.toList, some target⟩
  else none

def commitForward : Option (WorktreeNavigationHistory Target) :=
  if h.forward.getLast? = some target then
    some ⟨h.back ++ h.current.toList, h.forward.dropLast, some target⟩
  else none

/-- The history from the oldest entry to the newest. -/
def entries : List Target := h.back ++ h.current.toList ++ h.forward.reverse

end WorktreeNavigationHistory

/-- A call; the target that is peeked at is the one that is committed. -/
inductive NavigationEvent (Target : Type) where
  | record (target : Target)
  | leaveCurrent
  | prune (isValid : Target → Bool)
  | goBack (isValid : Target → Bool)
  | goForward (isValid : Target → Bool)

/-- `peekBack` and `peekForward` prune; without a target there is nothing to commit. -/
def navigate (h : WorktreeNavigationHistory Target) :
    NavigationEvent Target → Option (WorktreeNavigationHistory Target)
  | .record target => some (h.record target)
  | .leaveCurrent => some h.leaveCurrent
  | .prune isValid => some (h.prune isValid)
  | .goBack isValid =>
    let h := h.prune isValid
    h.back.getLast?.elim (some h) h.commitBack
  | .goForward isValid =>
    let h := h.prune isValid
    h.forward.getLast?.elim (some h) h.commitForward

/-- What a call prunes by. -/
def NavigationEvent.isValid : NavigationEvent Target → Target → Bool
  | .prune isValid | .goBack isValid | .goForward isValid => isValid
  | _ => fun _ => true

/-- Of the entries between two of one target that stays, one stays. -/
def Parted (isValid : Target → Bool) (entries : List Target) : Prop :=
  ∀ target between, between ≠ [] → target :: (between ++ [target]) <:+: entries →
    isValid target = true → ∃ other ∈ between, isValid other = true

omit [DecidableEq Target] in
theorem isChain_filter_iff {isValid : Target → Bool} {entries : List Target}
    (moves : entries.IsChain (· ≠ ·)) :
    (entries.filter isValid).IsChain (· ≠ ·) ↔ Parted isValid entries := by
  induction entries with
  | nil => simp [Parted]
  | cons first entries ih =>
    obtain ⟨next, moves⟩ := isChain_cons.mp moves
    have apart : ¬ [first] <+: entries := by
      rintro ⟨behind, rfl⟩
      exact next first rfl rfl
    have later : Parted isValid (first :: entries) ↔ (isValid first = true → ∀ between,
        between ++ [first] <+: entries → ∃ other ∈ between, isValid other = true) ∧
          Parted isValid entries := by
      simp only [Parted, infix_cons_iff, cons_prefix_cons]
      grind
    rw [later, ← ih moves, filter_cons]
    split
    next valid =>
      rw [isChain_cons, head?_filter]
      refine and_congr_left fun _ => ⟨fun differs _ between start => ?_, ?_⟩
      · obtain ⟨behind, rfl⟩ := start
        by_contra none
        refine differs first (find?_eq_some_iff_append.mpr ⟨valid, between, behind, by simp, ?_⟩) rfl
        simpa using none
      · rintro parted _ found rfl
        obtain ⟨_, between, behind, rfl, none⟩ := find?_eq_some_iff_append.mp found
        obtain ⟨other, listed, kept⟩ := parted valid between ⟨behind, by simp⟩
        simpa [kept] using none other listed
    next invalid => simp [invalid]

namespace WorktreeNavigationHistory

variable {h h' : WorktreeNavigationHistory Target} {target : Target}

omit [DecidableEq Target] in
theorem entries_prune (h : WorktreeNavigationHistory Target) (isValid : Target → Bool) :
    (h.prune isValid).entries = h.entries.filter isValid := by
  cases current : h.current <;> simp [entries, prune, current, filter_cons, Option.filter]
  split <;> simp

/-- Going back or forward moves the place in the history and nothing else. -/
theorem entries_commit (done : h.commitBack target = some h' ∨ h.commitForward target = some h') :
    h'.entries = h.entries := by
  obtain done | done := done
  all_goals
    obtain ⟨last, done⟩ := of_when done
    obtain ⟨before, whole⟩ := getLast?_eq_some_iff.mp last
    cases done
    cases current : h.current <;> simp [entries, whole, current]

theorem record_moves (target : Target) (moves : h.entries.IsChain (· ≠ ·)) :
    (h.record target).entries.IsChain (· ≠ ·) := by
  have older : (h.back ++ h.current.toList).IsChain (· ≠ ·) := moves.infix (prefix_append ..).isInfix
  rw [record]
  split
  · exact moves
  split
  next again =>
    obtain ⟨before, whole⟩ := getLast?_eq_some_iff.mp again.2
    simpa [entries, whole, again.1] using older
  next other fresh =>
    simp only [entries, Option.toList_some, reverse_nil, append_nil]
    refine isChain_append.mpr ⟨older, .singleton _, ?_⟩
    cases current : h.current <;> simp_all
    grind

end WorktreeNavigationHistory

open WorktreeNavigationHistory

theorem navigate_moves {h h' : WorktreeNavigationHistory Target} {event : NavigationEvent Target}
    (moves : h.entries.IsChain (· ≠ ·)) (parted : Parted event.isValid h.entries)
    (done : navigate h event = some h') : h'.entries.IsChain (· ≠ ·) := by
  have pruned := entries_prune h event.isValid ▸ (isChain_filter_iff moves).mpr parted
  cases event with
  | record target => exact Option.some.inj done ▸ record_moves target moves
  | leaveCurrent =>
    cases done
    rw [leaveCurrent]
    split
    · exact moves
    next current isCurrent =>
      refine moves.infix (IsPrefix.isInfix ⟨h.forward.reverse, ?_⟩)
      simp [entries, isCurrent]
  | prune => exact Option.some.inj done ▸ pruned
  | goBack isValid =>
    rw [navigate] at done
    cases nearest : (h.prune isValid).back.getLast? with
    | none => exact Option.some.inj (nearest ▸ done) ▸ pruned
    | some target => exact entries_commit (.inl (nearest ▸ done)) ▸ pruned
  | goForward isValid =>
    rw [navigate] at done
    cases nearest : (h.prune isValid).forward.getLast? with
    | none => exact Option.some.inj (nearest ▸ done) ▸ pruned
    | some target => exact entries_commit (.inr (nearest ▸ done)) ▸ pruned

/-- **Back and forward always move**, and forward undoes back, in a history from which no entries
were removed that parted two entries of one target; a removal keeps this exactly if it does not. -/
theorem back_and_forward_move (events : List (NavigationEvent Target))
    (h : WorktreeNavigationHistory Target)
    (met : Guarded navigate (fun h event => Parted event.isValid h.entries) {} events)
    (ran : run navigate {} events = some h) :
    h.entries.IsChain (· ≠ ·) ∧
    (∀ isValid, (h.prune isValid).entries.IsChain (· ≠ ·) ↔ Parted isValid h.entries) ∧
    ∀ current target h', h.current = some current →
      (h.commitForward target = some h' → target ≠ current) ∧
      (h.commitBack target = some h' → target ≠ current ∧ h'.commitForward current = some h) := by
  have moves : h.entries.IsChain (· ≠ ·) := run_invariant_of_guarded (·.entries.IsChain (· ≠ ·))
    (fun _ _ _ moves parted => navigate_moves moves parted) events {} h met .nil ran
  refine ⟨moves, fun isValid => entries_prune h isValid ▸ isChain_filter_iff moves, ?_⟩
  obtain ⟨back, forward, current⟩ := h
  rintro current target h' rfl
  refine ⟨fun done => ?_, fun done => ?_⟩
  all_goals
    obtain ⟨last, done⟩ := of_when done
    obtain ⟨before, rfl⟩ := getLast?_eq_some_iff.mp last
    cases done
  · have pair : [current, target] <:+: _ := ⟨back, before.reverse, rfl⟩
    simpa [eq_comm] using moves.infix (pair.trans (by simp [entries]))
  · have pair : [target, current].IsChain (· ≠ ·) :=
      moves.infix ⟨before, forward.reverse, by simp [entries]⟩
    exact ⟨by simpa using pair, by simp [commitForward]⟩

/-- A history without removals. -/
theorem back_and_forward_move_twice :
    (⟨[0, 1], [], some 0⟩ : WorktreeNavigationHistory Nat).entries.IsChain (· ≠ ·) := by
  have stay (entries : List Nat) : Parted (fun _ => true) entries := by
    intro _ between some_ _ _
    exact ⟨between.head some_, head_mem some_, rfl⟩
  refine (back_and_forward_move [.record 0, .record 1, .record 0] _ ?_ rfl).1
  exact ⟨stay _, fun _ _ => ⟨stay _, fun _ _ => ⟨stay _, fun _ _ => trivial⟩⟩⟩

/-- The target between two visits is removed, and going back stays where it is. -/
theorem prune_meets_itself :
    run navigate {} [.record 0, .record 1, .record 0, .goBack (· ≠ 1)] = some ⟨[], [0], some 0⟩ := by
  decide

end Alera.Workbench
