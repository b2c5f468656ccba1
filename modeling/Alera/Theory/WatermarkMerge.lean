/-
# Alera.Theory.WatermarkMerge -- two queues that remember one send order

A producer sends on two first-in-first-out lanes.  A *stamped* item carries its own
number; a *marker* carries the number of the last stamped item before it.  The
lanes are read separately, so the send order is not stored anywhere; it is a
list whose two projections are the lanes (`markers`, `stamped`) and in which
numbers and marks are compatible (`InOrder`).

What a reader sees at the front of the two lanes determines what comes first in
the send order: the stamped item if its number is at most the mark
(`stamped_first`), else the marker (`marker_first`).
-/
import Mathlib.Data.List.Basic

namespace Alera.Theory

set_option autoImplicit false

universe u

variable {α : Type u}

/-- One sent item, with the number its lane carries along. -/
inductive Sent (α : Type u) where
  | marker (mark : Nat) (item : α)
  | stamped (number : Nat) (item : α)

namespace Sent

def item : Sent α → α
  | .marker _ item => item
  | .stamped _ item => item

/-- The lane of markers. -/
def markers : List (Sent α) → List (Nat × α)
  | [] => []
  | .marker mark item :: rest => (mark, item) :: markers rest
  | .stamped .. :: rest => markers rest

/-- The lane of stamped items. -/
def stampeds : List (Sent α) → List (Nat × α)
  | [] => []
  | .stamped number item :: rest => (number, item) :: stampeds rest
  | .marker .. :: rest => stampeds rest

@[simp] theorem markers_append (xs ys : List (Sent α)) :
    markers (xs ++ ys) = markers xs ++ markers ys := by
  induction xs with
  | nil => rfl
  | cons x xs ih => cases x <;> simp [markers, ih]

@[simp] theorem stampeds_append (xs ys : List (Sent α)) :
    stampeds (xs ++ ys) = stampeds xs ++ stampeds ys := by
  induction xs with
  | nil => rfl
  | cons x xs ih => cases x <;> simp [stampeds, ih]

/-- What the numbers of two items say about their order. -/
def Before : Sent α → Sent α → Prop
  | .stamped number _, .marker mark _ => number ≤ mark
  | .marker mark _, .stamped number _ => mark < number
  | _, _ => True

/-- The numbers agree with the send order. -/
def InOrder (sent : List (Sent α)) : Prop := sent.Pairwise Before

variable {sent : List (Sent α)} {mark : Nat}

theorem mem_markers {item : α} : (mark, item) ∈ markers sent ↔ .marker mark item ∈ sent := by
  induction sent with
  | nil => simp [markers]
  | cons x sent ih => cases x <;> simp [markers, ih]

theorem mem_stampeds {number : Nat} {item : α} :
    (number, item) ∈ stampeds sent ↔ .stamped number item ∈ sent := by
  induction sent with
  | nil => simp [stampeds]
  | cons x sent ih => cases x <;> simp [stampeds, ih]

/-- A stamped item numbered at most the next mark, if there is one, was sent first. -/
theorem stamped_first {number : Nat} {s : α} {ss : List (Nat × α)} (inOrder : InOrder sent)
    (numbered : stampeds sent = (number, s) :: ss)
    (within : ∀ mark m ms, markers sent = (mark, m) :: ms → number ≤ mark) :
    ∃ rest, sent = .stamped number s :: rest ∧ markers rest = markers sent ∧
      stampeds rest = ss := by
  cases sent with
  | nil => cases numbered
  | cons x rest =>
    cases x with
    | stamped n i =>
      obtain ⟨⟨rfl, rfl⟩, rfl⟩ : (n = number ∧ i = s) ∧ stampeds rest = ss := by
        simpa [stampeds] using numbered
      exact ⟨rest, rfl, rfl, rfl⟩
    | marker w i =>
      -- The marker would precede an item it is not smaller than.
      have member : .stamped number s ∈ rest := by
        rw [← mem_stampeds]
        have lane : stampeds rest = (number, s) :: ss := numbered
        rw [lane]
        exact .head _
      have beyond : w < number := (List.pairwise_cons.mp inOrder).1 _ member
      have behind : number ≤ w := within w i (markers rest) rfl
      omega

/-- A marker was sent before every stamped item numbered beyond it. -/
theorem marker_first {m : α} {ms : List (Nat × α)} (inOrder : InOrder sent)
    (marked : markers sent = (mark, m) :: ms)
    (beyond : ∀ number s ss, stampeds sent = (number, s) :: ss → mark < number) :
    ∃ rest, sent = .marker mark m :: rest ∧ markers rest = ms ∧ stampeds rest = stampeds sent := by
  cases sent with
  | nil => cases marked
  | cons x rest =>
    cases x with
    | marker w i =>
      obtain ⟨⟨rfl, rfl⟩, rfl⟩ : (w = mark ∧ i = m) ∧ markers rest = ms := by
        simpa [markers] using marked
      exact ⟨rest, rfl, rfl, rfl⟩
    | stamped n i =>
      have member : .marker mark m ∈ rest := by
        rw [← mem_markers]
        have lane : markers rest = (mark, m) :: ms := marked
        rw [lane]
        exact .head _
      have within : n ≤ mark := (List.pairwise_cons.mp inOrder).1 _ member
      have past : mark < n := beyond n i (stampeds rest) rfl
      omega

/-- The last number or mark a lane carries. -/
def number : Sent α → Nat
  | .marker mark _ => mark
  | .stamped number _ => number

theorem InOrder.push_marker (m : α) (inOrder : InOrder sent) (bounded : ∀ x ∈ sent, x.number ≤ mark) :
    InOrder (sent ++ [.marker mark m]) := by
  refine List.pairwise_append.mpr ⟨inOrder, List.pairwise_singleton _ _, ?_⟩
  intro x member y fresh
  rw [List.mem_singleton.mp fresh]
  cases x with
  | marker w i => trivial
  | stamped n i => exact bounded _ member

theorem InOrder.push_stamped (s : α) (inOrder : InOrder sent)
    (bounded : ∀ x ∈ sent, x.number ≤ mark) : InOrder (sent ++ [.stamped (mark + 1) s]) := by
  refine List.pairwise_append.mpr ⟨inOrder, List.pairwise_singleton _ _, ?_⟩
  intro x member y fresh
  rw [List.mem_singleton.mp fresh]
  cases x with
  | marker w i => exact Nat.lt_succ_of_le (bounded _ member)
  | stamped n i => trivial

end Sent

end Alera.Theory
