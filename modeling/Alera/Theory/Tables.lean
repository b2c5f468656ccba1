/-
# Alera.Theory.Tables -- tables as lists of rows

What a database does to a table in one statement, for proofs about code that
keeps its state there: `lookup` reads the row of a key, `updateWhere` rewrites
the rows a condition selects.  A unique key is `(table.map key).Nodup`; under it a
row is known by its key (`eq_of_key`) and a lookup finds it (`lookup_of_mem`).
-/
import Mathlib.Data.List.Nodup

namespace Alera.Theory.Tables

open List

set_option autoImplicit false

universe u v

variable {Row : Type u} {Key : Type v}

/-- `UPDATE … SET … WHERE`. -/
def updateWhere (table : List Row) (selects : Row → Bool) (set : Row → Row) : List Row :=
  table.map fun row => if selects row then set row else row

section Update

variable {table : List Row} {selects : Row → Bool} {set : Row → Row} {row : Row}

theorem mem_updateWhere :
    row ∈ updateWhere table selects set ↔
      ∃ old ∈ table, row = if selects old then set old else old := by
  simp only [updateWhere, mem_map, eq_comm]

/-- Every row has its successor. -/
theorem mem_updateWhere_of_mem (member : row ∈ table) :
    (if selects row then set row else row) ∈ updateWhere table selects set :=
  mem_map_of_mem member

theorem mem_updateWhere_of_selected (member : row ∈ table)
    (selected : selects row = true) : set row ∈ updateWhere table selects set :=
  mem_updateWhere.mpr ⟨row, member, (if_pos selected).symm⟩

theorem mem_updateWhere_of_kept (member : row ∈ table)
    (kept : ¬ selects row = true) : row ∈ updateWhere table selects set :=
  mem_updateWhere.mpr ⟨row, member, (if_neg kept).symm⟩

/-- A row was written, or was there and was not selected. -/
theorem mem_updateWhere_cases (member : row ∈ updateWhere table selects set) :
    (∃ old ∈ table, selects old = true ∧ row = set old) ∨ row ∈ table ∧ ¬ selects row = true := by
  obtain ⟨old, inside, rfl⟩ := mem_updateWhere.mp member
  split
  next selected => exact .inl ⟨old, inside, selected, rfl⟩
  next kept => exact .inr ⟨inside, kept⟩

theorem map_updateWhere {key : Row → Key} (keeps : ∀ row, key (set row) = key row) :
    (updateWhere table selects set).map key = table.map key := by
  rw [updateWhere, map_map]
  refine map_congr_left fun row _ => ?_
  rw [Function.comp_apply]
  split
  · exact keeps row
  · rfl

variable {keep : Row → Bool}

/-- A condition and a key that no row loses select the same keys. -/
theorem map_filter_updateWhere {key : Row → Key}
    (kept : ∀ row ∈ table, selects row = true → keep (set row) = keep row)
    (same : ∀ row, key (set row) = key row) :
    ((updateWhere table selects set).filter keep).map key = (table.filter keep).map key := by
  have stays : ∀ row ∈ table, (keep ∘ fun row => if selects row then set row else row) row = keep row := by
    intro row member
    rw [Function.comp_apply]
    split
    next selected => exact kept row member selected
    · rfl
  rw [updateWhere, filter_map, map_map, filter_congr stays]
  refine map_congr_left fun row _ => ?_
  rw [Function.comp_apply]
  split
  · exact same row
  · rfl

/-- An update whose rows no longer meet a condition takes them, and only them, out of a selection. -/
theorem filter_updateWhere_of_dropped
    (dropped : ∀ row ∈ table, selects row = true → keep (set row) = false) :
    (updateWhere table selects set).filter keep =
      (table.filter keep).filter fun row => !selects row := by
  have stays : ∀ row ∈ table, (keep ∘ fun row => if selects row then set row else row) row =
      (!selects row && keep row) := by
    intro row member
    rw [Function.comp_apply]
    split
    next selected => rw [dropped row member selected, selected]; rfl
    next unselected => simp [unselected]
  rw [updateWhere, filter_map, filter_congr stays, filter_filter]
  refine (map_congr_left fun row member => ?_).trans (map_id _)
  obtain ⟨-, kept⟩ := mem_filter.mp member
  rw [Bool.and_eq_true, Bool.not_eq_true'] at kept
  rw [kept.1]
  rfl

/-- Rows that the condition does not select stay as they are, in place. -/
theorem filter_updateWhere
    (outside : ∀ row ∈ table, selects row = true → keep row = false ∧ keep (set row) = false) :
    (updateWhere table selects set).filter keep = table.filter keep := by
  rw [filter_updateWhere_of_dropped fun row member selected => (outside row member selected).2]
  refine filter_eq_self.mpr fun row member => ?_
  obtain ⟨member, kept⟩ := mem_filter.mp member
  cases selected : selects row with
  | true => rw [(outside row member selected).1] at kept; cases kept
  | false => rfl

/-- Two updates to the same values, of which the second leaves the rows of the first alone. -/
theorem updateWhere_updateWhere {selects' : Row → Bool}
    (apart : ∀ row, selects row = true → selects' (set row) = false) :
    updateWhere (updateWhere table selects set) selects' set =
      updateWhere table (fun row => selects row || selects' row) set := by
  rw [updateWhere, updateWhere, map_map, updateWhere]
  refine map_congr_left fun row _ => ?_
  rw [Function.comp_apply]
  cases selected : selects row with
  | true => rw [if_pos rfl, apart row selected, Bool.true_or]; rfl
  | false => rfl

theorem updateWhere_false : updateWhere table (fun _ => false) set = table := by
  simp [updateWhere]

end Update

section Keys

variable {key : Row → Key} {table : List Row}

variable (unique : (table.map key).Nodup)

include unique

theorem eq_of_key {row row' : Row} (member : row ∈ table)
    (member' : row' ∈ table) (same : key row = key row') : row = row' :=
  inj_on_of_nodup_map unique member member' same

variable {row : Row}

/-- A row with a new key keeps the key unique. -/
theorem nodup_append_singleton
    (fresh : ∀ other ∈ table, key other ≠ key row) : ((table ++ [row]).map key).Nodup := by
  rw [map_append]
  refine nodup_append.mpr ⟨unique, nodup_singleton _, ?_⟩
  rintro k listed k' single rfl
  obtain ⟨other, member, same⟩ := mem_map.mp listed
  exact fresh other member (same.trans (mem_singleton.mp single))

/-- At most one row meets a condition that determines the key. -/
theorem length_filter_le_one {p : Row → Bool}
    (same : ∀ row ∈ table, ∀ row' ∈ table, p row = true → p row' = true → key row = key row') :
    (table.filter p).length ≤ 1 := by
  have distinct : ((table.filter p).map key).Nodup := unique.sublist (filter_sublist.map key)
  have equal : ∀ row ∈ table.filter p, ∀ row' ∈ table.filter p, key row = key row' := by
    intro row member row' member'
    obtain ⟨inside, selected⟩ := mem_filter.mp member
    obtain ⟨inside', selected'⟩ := mem_filter.mp member'
    exact same row inside row' inside' selected selected'
  generalize table.filter p = rows at distinct equal
  match rows with
  | [] => exact Nat.zero_le _
  | [_] => exact Nat.le_refl _
  | row :: row' :: rest =>
    have differ := (nodup_cons.mp distinct).1
    exact absurd (by rw [equal row (by simp) row' (by simp)]; simp) differ

/-- The one row that meets a condition. -/
theorem filter_eq_singleton {p : Row → Bool}
    (member : row ∈ table) (selected : p row = true) (only : ∀ other ∈ table, p other = true → other = row) :
    table.filter p = [row] := by
  have few : (table.filter p).length ≤ 1 := length_filter_le_one unique fun first inside second inside' p₁ p₂ => by
    rw [only first inside p₁, only second inside' p₂]
  have inside : row ∈ table.filter p := mem_filter.mpr ⟨member, selected⟩
  generalize table.filter p = rows at few inside
  match rows with
  | [] => exact absurd inside not_mem_nil
  | [other] => rw [mem_singleton.mp inside]
  | first :: second :: rest => exact absurd few (by simp)

omit unique

variable [DecidableEq Key]

/-- `SELECT … WHERE key = k`, for a unique key. -/
def lookup (key : Row → Key) (k : Key) (table : List Row) : Option Row :=
  table.find? fun row => key row = k

theorem lookup_some {k : Key} (found : lookup key k table = some row) : row ∈ table ∧ key row = k :=
  ⟨mem_of_find?_eq_some found, by simpa using find?_some found⟩

theorem lookup_of_mem (unique : (table.map key).Nodup) (member : row ∈ table) :
    lookup key (key row) table = some row := by
  cases found : lookup key (key row) table with
  | none => exact absurd (by simp) (find?_eq_none.mp found row member)
  | some row' =>
    obtain ⟨member', same⟩ := lookup_some found
    rw [eq_of_key unique member' member same]

/-- An update that keeps the key is seen by every lookup. -/
theorem lookup_map_updateWhere {selects : Row → Bool} {set : Row → Row}
    (keeps : ∀ row, key (set row) = key row) (k : Key) :
    lookup key k (updateWhere table selects set) =
      (lookup key k table).map fun row => if selects row then set row else row := by
  rw [lookup, updateWhere, find?_map]
  congr 2
  funext row
  rw [Function.comp_apply]
  split
  · rw [keeps]
  · rfl

/-- An update of the row of one key is seen by lookups of that key only. -/
theorem lookup_updateWhere {set : Row → Row} (keeps : ∀ row, key (set row) = key row) (k k' : Key) :
    lookup key k (updateWhere table (fun row => key row = k') set) =
      if k = k' then (lookup key k table).map set else lookup key k table := by
  rw [lookup_map_updateWhere keeps]
  cases found : lookup key k table with
  | none => split <;> rfl
  | some row =>
    have isKey := (lookup_some found).2
    rw [Option.map_some, isKey]
    by_cases same : k = k'
    · rw [if_pos same, if_pos (decide_eq_true same), Option.map_some]
    · rw [if_neg same, if_neg fun yes => same (of_decide_eq_true yes)]

/-- A row that is found stays found when rows are added behind. -/
theorem lookup_append {k : Key} (found : lookup key k table = some row)
    (added : List Row) : lookup key k (table ++ added) = some row := by
  rw [lookup] at found
  rw [lookup, find?_append, found, Option.some_or]

end Keys

end Alera.Theory.Tables
