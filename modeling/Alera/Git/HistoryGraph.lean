/-
# Alera.Git.HistoryGraph -- the lanes of the history graph

`buildGitHistoryViewModelsFromItems` (`lib/src/shared/infra/git/git_history_graph.dart`), up to
the rows for incoming and outgoing changes.  A lane runs from a commit to a parent that has not
been listed yet.  A row copies the lanes above it only if its commit has parents, so a root drops
the lanes of all other commits: the lanes are right exactly if no root comes while another commit
waits for its parent (`lanes_follow_graph_iff`).
-/
import Mathlib.Data.List.Basic

namespace Alera.Git

set_option autoImplicit false

variable {Color : Type}

structure GitHistoryItem where
  id : String
  parentIds : List String

structure GitHistoryGraphNode (Color : Type) where
  id : String
  color : Color

structure GitHistoryItemViewModel (Color : Type) where
  historyItem : GitHistoryItem
  inputSwimlanes : List (GitHistoryGraphNode Color)
  outputSwimlanes : List (GitHistoryGraphNode Color)

/-- The colours: that of a commit's label, and those that new lanes take by turns. -/
structure LaneColors (Color : Type) where
  label : GitHistoryItem → Option Color
  lane : Nat → Color

section Build

variable (colors : LaneColors Color)

/-- The lanes that go on: the first one to the commit goes to its first parent, others end. -/
def followLanes (item : GitHistoryItem) (parent : String) :
    Bool → List (GitHistoryGraphNode Color) → List (GitHistoryGraphNode Color)
  | _, [] => []
  | added, node :: lanes =>
    if node.id = item.id then
      if added then followLanes item parent added lanes
      else ⟨parent, (colors.label item).getD node.color⟩ :: followLanes item parent true lanes
    else node :: followLanes item parent added lanes

/-- New lanes; one without a label's colour takes the next of the lane colours. -/
def addLanes (colorIndex : Nat) :
    List (String × Option Color) → List (GitHistoryGraphNode Color) × Nat
  | [] => ([], colorIndex)
  | (id, some color) :: rest => (addLanes colorIndex rest).map (⟨id, color⟩ :: ·) fun n => n
  | (id, none) :: rest =>
    (addLanes (colorIndex + 1) rest).map (⟨id, colors.lane colorIndex⟩ :: ·) fun n => n

def outputLanes (items : List GitHistoryItem) (item : GitHistoryItem)
    (input : List (GitHistoryGraphNode Color)) (colorIndex : Nat) :
    List (GitHistoryGraphNode Color) × Nat :=
  match item.parentIds with
  | [] => ([], colorIndex)
  | first :: others =>
    let merged := others.map fun id => (id, (items.find? (·.id = id)).bind colors.label)
    let added := input.any (·.id = item.id)
    (addLanes colors colorIndex (if added then merged else (first, colors.label item) :: merged)).map
      (followLanes colors item first false input ++ ·) fun n => n

/-- The loop, with the lanes of the row above. -/
def buildRows (items : List GitHistoryItem) :
    List GitHistoryItem → List (GitHistoryGraphNode Color) → Nat →
      List (GitHistoryItemViewModel Color)
  | [], _, _ => []
  | item :: rest, input, colorIndex =>
    let output := outputLanes colors items item input colorIndex
    ⟨item, input, output.1⟩ :: buildRows items rest output.1 output.2

def buildGitHistoryViewModelsFromItems (items : List GitHistoryItem) :
    List (GitHistoryItemViewModel Color) :=
  buildRows colors items items [] 0

end Build

/-- A parent of a listed commit that is not listed. -/
def Awaited (listed : List GitHistoryItem) (id : String) : Prop :=
  (∃ item ∈ listed, id ∈ item.parentIds) ∧ ∀ item ∈ listed, item.id ≠ id

def laneIds (lanes : List (GitHistoryGraphNode Color)) : List String := lanes.map (·.id)

/-- Each row takes over the lanes of the one above, and they lead to the awaited parents. -/
def LanesFollow (colors : LaneColors Color) (items : List GitHistoryItem) : Prop :=
  let rows := buildGitHistoryViewModelsFromItems colors items
  (∀ i above row, rows[i]? = some above → rows[i + 1]? = some row →
    row.inputSwimlanes = above.outputSwimlanes) ∧
  ∀ i row, rows[i]? = some row → ∀ id,
    id ∈ laneIds row.outputSwimlanes ↔ Awaited (items.take (i + 1)) id

variable {colors : LaneColors Color} {items listed : List GitHistoryItem} {item : GitHistoryItem}
  {input : List (GitHistoryGraphNode Color)} {colorIndex : Nat}

theorem mem_followLanes {parent id : String} {added : Bool} :
    id ∈ laneIds (followLanes colors item parent added input) ↔
      id ∈ laneIds input ∧ id ≠ item.id ∨
        added = false ∧ item.id ∈ laneIds input ∧ id = parent := by
  simp only [laneIds]
  induction input generalizing added with
  | nil => simp [followLanes]
  | cons node lanes ih =>
    rw [followLanes]
    split_ifs <;> simp only [List.map_cons, List.mem_cons, ih] <;> grind

theorem laneIds_addLanes (added : List (String × Option Color)) :
    laneIds (addLanes colors colorIndex added).1 = added.map Prod.fst := by
  induction added generalizing colorIndex with
  | nil => rfl
  | cons lane added ih =>
    obtain ⟨id, _ | color⟩ := lane <;> simpa [addLanes, laneIds] using ih

/-- A commit with parents ends the lanes to it and starts those to its parents. -/
theorem mem_outputLanes (parents : item.parentIds ≠ []) (id : String) :
    id ∈ laneIds (outputLanes colors items item input colorIndex).1 ↔
      id ∈ laneIds input ∧ id ≠ item.id ∨ id ∈ item.parentIds := by
  rw [outputLanes]
  split
  next none => exact absurd none parents
  next first others same =>
    have follow := @mem_followLanes _ colors item input first id false
    have add := @laneIds_addLanes _ colors colorIndex
    simp only [laneIds, Prod.map_fst, List.map_append, List.mem_append] at *
    rw [add]
    split_ifs <;> simp [Function.comp_def] <;> grind

theorem awaited_append (parents : ∀ other ∈ listed ++ [item], other.id ∉ item.parentIds)
    (id : String) :
    Awaited (listed ++ [item]) id ↔ Awaited listed id ∧ id ≠ item.id ∨ id ∈ item.parentIds := by
  simp only [Awaited]
  grind

/-- One row: the lanes are right behind it unless it is a root and a parent is awaited. -/
theorem outputLanes_iff (parents : ∀ other ∈ listed ++ [item], other.id ∉ item.parentIds)
    (lanes : ∀ id, id ∈ laneIds input ↔ Awaited listed id) :
    (∀ id, id ∈ laneIds (outputLanes colors items item input colorIndex).1 ↔
      Awaited (listed ++ [item]) id) ↔
    (item.parentIds = [] → ∀ id, ¬ Awaited (listed ++ [item]) id) := by
  by_cases root : item.parentIds = []
  · simp [outputLanes, root, laneIds]
  · simp [mem_outputLanes root, awaited_append parents, lanes, root]

/-- The rows behind `listed`. -/
theorem buildRows_iff {rest : List GitHistoryItem}
    (precede : (listed ++ rest).Pairwise fun above below => above.id ∉ below.parentIds)
    (apart : ∀ item ∈ rest, item.id ∉ item.parentIds)
    (lanes : ∀ id, id ∈ laneIds input ↔ Awaited listed id) :
    (∀ i row, (buildRows colors items rest input colorIndex)[i]? = some row → ∀ id,
      id ∈ laneIds row.outputSwimlanes ↔ Awaited (listed ++ rest.take (i + 1)) id) ↔
    ∀ i item, rest[i]? = some item → item.parentIds = [] →
      ∀ id, ¬ Awaited (listed ++ rest.take (i + 1)) id := by
  induction rest generalizing listed input colorIndex with
  | nil => simp [buildRows]
  | cons item rest ih =>
    have shift (n : Nat) :
        listed ++ (item :: rest).take (n + 1) = listed ++ [item] ++ rest.take n := by simp
    have step := @outputLanes_iff _ colors items listed item input colorIndex (by grind) lanes
    refine Nat.and_forall_add_one.symm.trans (Iff.trans ?_ Nat.and_forall_add_one)
    simp only [buildRows, List.getElem?_cons_zero, List.getElem?_cons_succ, shift, List.take_zero,
      List.append_nil, Option.some.injEq, forall_eq']
    rw [← step]
    refine and_congr_right fun right => ih ?_ (fun item mem => apart item (by simp [mem])) right
    rwa [List.append_assoc]

theorem buildRows_threads {rest : List GitHistoryItem} {i : Nat}
    {above row : GitHistoryItemViewModel Color}
    (before : (buildRows colors items rest input colorIndex)[i]? = some above)
    (next : (buildRows colors items rest input colorIndex)[i + 1]? = some row) :
    row.inputSwimlanes = above.outputSwimlanes := by
  induction rest generalizing input colorIndex i with
  | nil => simp [buildRows] at before
  | cons item rest ih =>
    cases i with
    | succ i => exact ih before next
    | zero =>
      cases rest with
      | nil => simp [buildRows] at next
      | cons =>
        simp only [buildRows, List.getElem?_cons_succ, List.getElem?_cons_zero,
          Option.some.injEq] at before next
        rw [← before, ← next]

/-- **The lanes follow the commit graph exactly if no root is listed while a parent is awaited**,
for commits listed before their parents. -/
theorem lanes_follow_graph_iff (colors : LaneColors Color) (items : List GitHistoryItem)
    (precede : items.Pairwise fun above below => above.id ∉ below.parentIds)
    (apart : ∀ item ∈ items, item.id ∉ item.parentIds) :
    LanesFollow colors items ↔
    ∀ i item, items[i]? = some item → item.parentIds = [] →
      ∀ id, ¬ Awaited (items.take (i + 1)) id := by
  have rows := @buildRows_iff _ colors items [] [] 0 items precede apart (by simp [laneIds, Awaited])
  exact (and_iff_right fun i above row => buildRows_threads).trans rows

theorem lanes_follow_graph_iff_branch :
    LanesFollow ⟨fun _ => none, id⟩ [⟨"child", ["root"]⟩, ⟨"root", []⟩] := by
  refine (lanes_follow_graph_iff _ _ (by decide) (by decide)).mpr fun i item is root id => ?_
  rcases i with _ | _ | i <;> cases is
  · exact absurd root (by decide)
  · simp +contextual [Awaited]

/-- A root drops the lane from the commit above it. -/
theorem root_drops_lane :
    ¬ LanesFollow ⟨fun _ => none, id⟩ [⟨"child", ["parent"]⟩, ⟨"root", []⟩, ⟨"parent", []⟩] := by
  intro follows
  have lost := (follows.2 1 _ rfl "parent").mpr (by simp [Awaited])
  exact absurd lost (by decide)

end Alera.Git
