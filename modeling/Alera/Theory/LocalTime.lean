/-
# Alera.Theory.LocalTime -- zones with a piecewise constant offset

A zone is an offset that changes at some instants.  The local time of an instant is the
instant with the offset added, so a local time may belong to no instant, where the
offset grows, or to more than one, where it falls.  `fromLocal` finds them.

Changes are far enough apart (`Spaced`): none is as large as the time to the change
before or behind it.  Then local time never falls back to what it has jumped over, and
an instant that is the first with its local time has a later local time than every
instant before it (`local_lt_of_first`).
-/
import Mathlib.Data.List.Pairwise
import Mathlib.Algebra.Order.Group.Unbundled.Int
import Mathlib.Algebra.Order.Group.Unbundled.Abs

namespace Alera.Theory.LocalTime

open List

set_option autoImplicit false

/-- The offset at an instant: `before`, up to the first change. -/
def offsetAt (before : Int) : List (Int × Int) → Int → Int
  | [], _ => before
  | (change, offset) :: rest, t => if t < change then before else offsetAt offset rest t

/-- Every change of the offset is smaller than the time to its neighbours. -/
def Spaced (before : Int) : List (Int × Int) → Prop
  | [] => True
  | [_] => True
  | (first, offset) :: (second, next) :: rest =>
    |offset - before| < second - first ∧ |next - offset| < second - first ∧
      Spaced offset ((second, next) :: rest)

/-- An offset to start with, and the instants from which on it is another one. -/
structure Zone where
  base : Int
  changes : List (Int × Int)
  spaced : Spaced base changes

/-- The local time of an instant. -/
def Zone.localOf (zone : Zone) (t : Int) : Int := t + offsetAt zone.base zone.changes t

/-! ## Local times are left behind in order -/

variable {rest : List (Int × Int)} {before : Int}

theorem Spaced.tail {change : Int × Int}
    (spaced : Spaced before (change :: rest)) : Spaced change.2 rest := by
  cases rest with
  | nil => trivial
  | cons next rest => exact spaced.2.2

/-- The instant of a change, and what its offset falls by, come before the next change. -/
theorem Spaced.next {before first offset second next : Int}
    (spaced : Spaced before ((first, offset) :: (second, next) :: rest)) :
    first < second ∧ first + offset < second + next := by
  have jump := spaced.2.1
  have bounds := abs_lt.mp jump
  omega

/-- Behind a change no local time is earlier than the one it leads to. -/
theorem start_le {before change offset : Int}
    (spaced : Spaced before ((change, offset) :: rest)) {u : Int} (behind : change ≤ u) :
    change + offset ≤ u + offsetAt offset rest u := by
  induction rest generalizing before change offset with
  | nil =>
    rw [offsetAt]
    omega
  | cons second rest ih =>
    have order := spaced.next
    rw [offsetAt]
    split
    · omega
    next later =>
      have reached := ih spaced.tail (Int.not_lt.mp later)
      omega

/-- Before a change, the offset of the change is that of everything behind it. -/
theorem offsetAt_early {before change offset : Int}
    (spaced : Spaced before ((change, offset) :: rest)) {t : Int} (early : t < change) :
    offsetAt offset rest t = offset := by
  cases rest with
  | nil => rfl
  | cons second rest =>
    have order := spaced.next
    exact if_pos (early.trans order.1)

/-- A local time that is not later than one reached before has been reached before. -/
theorem reached_before {changes : List (Int × Int)}
    (spaced : Spaced before changes) {t u : Int} (earlier : t < u)
    (notLater : u + offsetAt before changes u ≤ t + offsetAt before changes t) :
    ∃ s ≤ t, s + offsetAt before changes s = u + offsetAt before changes u := by
  induction changes generalizing before with
  | nil =>
    rw [offsetAt, offsetAt] at notLater
    omega
  | cons first rest ih =>
    obtain ⟨change, offset⟩ := first
    have later : Spaced offset rest := spaced.tail
    by_cases early : t < change
    · -- Up to the change all local times are reached.
      have atT : offsetAt before ((change, offset) :: rest) t = before := if_pos early
      generalize u + offsetAt before ((change, offset) :: rest) u = wall at notLater ⊢
      have atS : offsetAt before ((change, offset) :: rest) (wall - before) = before :=
        if_pos (by omega)
      exact ⟨wall - before, by omega, by omega⟩
    · have lateU : ¬ u < change := by omega
      have atT : offsetAt before ((change, offset) :: rest) t = offsetAt offset rest t :=
        if_neg early
      have atU : offsetAt before ((change, offset) :: rest) u = offsetAt offset rest u :=
        if_neg lateU
      rw [atT, atU] at notLater
      obtain ⟨s, within, same⟩ := ih later notLater
      have behind := start_le spaced (Int.not_lt.mp lateU)
      refine ⟨s, within, ?_⟩
      rw [atU, offsetAt]
      split
      next beforeChange =>
        rw [offsetAt_early spaced beforeChange] at same
        omega
      · exact same

/-- **The first instant with its local time is later, in local time too, than every
instant before it.** -/
theorem local_lt_of_first {zone : Zone} {t u : Int} (earlier : t < u)
    (first : ∀ s, zone.localOf s = zone.localOf u → u ≤ s) : zone.localOf t < zone.localOf u := by
  by_contra notLater
  obtain ⟨s, within, same⟩ := reached_before zone.spaced earlier (Int.not_lt.mp notLater)
  have late := first s same
  omega

/-! ## From local times to instants -/

/-- `LocalResult`. -/
inductive LocalResult where
  | none
  | single (instant : Int)
  | ambiguous (first second : Int)

/-- The instants with a local time, from a change on, in order. -/
def instantsFrom (start : Option Int) (offset : Int) : List (Int × Int) → Int → List Int
  | [], wall => if ∀ s ∈ start, s ≤ wall - offset then [wall - offset] else []
  | (change, next) :: rest, wall =>
    (if (∀ s ∈ start, s ≤ wall - offset) ∧ wall - offset < change then [wall - offset] else []) ++
      instantsFrom (some change) next rest wall

/-- The instants with a local time. -/
def Zone.instantsOf (zone : Zone) (wall : Int) : List Int :=
  instantsFrom none zone.base zone.changes wall

/-- `from_local_datetime`. -/
def Zone.fromLocal (zone : Zone) (wall : Int) : LocalResult :=
  match zone.instantsOf wall with
  | [] => .none
  | [instant] => .single instant
  | first :: second :: _ => .ambiguous first second

theorem instantsFrom_spec {start : Option Int} {offset : Int} {changes : List (Int × Int)}
    (spaced : Spaced before ((start.map (·, offset)).toList ++ changes))
    (own : start = none → before = offset) (wall : Int) :
    (instantsFrom start offset changes wall).Pairwise (· < ·) ∧
      ∀ t, t ∈ instantsFrom start offset changes wall ↔
        (∀ s ∈ start, s ≤ t) ∧ t + offsetAt offset changes t = wall := by
  -- A part of a time line has one instant at most.
  have part : ∀ (c : Prop) [Decidable c] (t : Int), (if c then [t] else []).Pairwise (· < ·) := by
    intro c _ t
    split
    · exact pairwise_singleton _ _
    · exact List.Pairwise.nil
  induction changes generalizing before start offset with
  | nil =>
    rw [instantsFrom]
    refine ⟨part _ _, fun t => ?_⟩
    rw [offsetAt]
    constructor
    · intro member
      split at member
      next behind =>
        obtain rfl := mem_singleton.mp member
        exact ⟨behind, by omega⟩
      · cases member
    · rintro ⟨behind, rfl⟩
      have same : t + offset - offset = t := by omega
      rw [same, if_pos behind]
      exact mem_singleton_self t
  | cons next rest ih =>
    obtain ⟨change, nextOffset⟩ := next
    have later : Spaced offset (((some change).map (·, nextOffset)).toList ++ rest) := by
      cases start with
      | none =>
        obtain rfl := own rfl
        exact spaced
      | some s => exact spaced.tail
    have inOrder : ∀ s ∈ start, s < change := by
      intro s isStart
      cases start with
      | none => cases isStart
      | some other =>
        cases isStart
        exact spaced.next.1
    obtain ⟨sorted, members⟩ := ih later nofun
    rw [instantsFrom]
    refine ⟨pairwise_append.mpr ⟨part _ _, sorted, fun t here u behind => ?_⟩, fun t => ?_⟩
    · split at here
      next bounds =>
        obtain rfl := mem_singleton.mp here
        have late := ((members u).mp behind).1 change rfl
        omega
      · cases here
    rw [mem_append, members t, offsetAt]
    constructor
    · rintro (here | ⟨behind, same⟩)
      · split at here
        next bounds =>
          obtain rfl := mem_singleton.mp here
          exact ⟨bounds.1, by omega⟩
        · cases here
      · have late := behind change rfl
        rw [if_neg (by omega)]
        exact ⟨fun s isStart => (inOrder s isStart).le.trans late, same⟩
    · rintro ⟨behind, same⟩
      split at same
      next early =>
        have instant : wall - offset = t := by omega
        left
        rw [instant, if_pos ⟨behind, early⟩]
        exact mem_singleton_self t
      next late =>
        right
        refine ⟨fun s isStart => ?_, same⟩
        cases isStart
        exact Int.not_lt.mp late

theorem Zone.mem_instantsOf (zone : Zone) {wall t : Int} :
    t ∈ zone.instantsOf wall ↔ zone.localOf t = wall := by
  have spec := @instantsFrom_spec zone.base none zone.base zone.changes zone.spaced
    (fun _ => rfl) wall
  exact (spec.2 t).trans (and_iff_right nofun)

/-- The instant that is taken for a local time: the first, if there is any. -/
def Zone.firstOf (zone : Zone) (wall : Int) : List Int :=
  match zone.fromLocal wall with
  | .none => []
  | .single instant => [instant]
  | .ambiguous first second => [min first second]

theorem Zone.mem_firstOf (zone : Zone) {wall u : Int} :
    u ∈ zone.firstOf wall ↔ zone.localOf u = wall ∧ ∀ t, zone.localOf t = wall → u ≤ t := by
  have inOrder : (zone.instantsOf wall).Pairwise (· < ·) :=
    (@instantsFrom_spec zone.base none zone.base zone.changes zone.spaced (fun _ => rfl) wall).1
  have head : zone.firstOf wall = (zone.instantsOf wall).head?.toList := by
    rw [Zone.firstOf, Zone.fromLocal]
    match found : zone.instantsOf wall with
    | [] => rfl
    | [instant] => rfl
    | first :: second :: rest =>
      rw [found] at inOrder
      have less := rel_of_pairwise_cons inOrder mem_cons_self
      exact congrArg (fun instant => [instant]) (min_eq_left less.le)
  rw [head]
  match found : zone.instantsOf wall with
  | [] =>
    refine ⟨nofun, fun ⟨same, _⟩ => ?_⟩
    have member := zone.mem_instantsOf.mpr same
    rw [found] at member
    cases member
  | first :: rest =>
    rw [found] at inOrder
    have isFirst : ∀ t, zone.localOf t = wall → first ≤ t := by
      intro t same
      have member := zone.mem_instantsOf.mpr same
      rw [found] at member
      rcases mem_cons.mp member with rfl | later
      · exact Int.le_refl _
      · exact (rel_of_pairwise_cons inOrder later).le
    have own : zone.localOf first = wall :=
      zone.mem_instantsOf.mp (found ▸ mem_cons_self)
    constructor
    · intro member
      obtain rfl := mem_singleton.mp member
      exact ⟨own, isFirst⟩
    · rintro ⟨same, least⟩
      exact mem_singleton.mpr (Int.le_antisymm (least first own) (isFirst u same))

end Alera.Theory.LocalTime
