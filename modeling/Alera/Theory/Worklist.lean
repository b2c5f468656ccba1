/-
# Alera.Theory.Worklist -- loops that work off what they find

Three loops over what is still to do.

`drain pass` keeps a stack: an item is popped, `pass` works on the state and answers the
items to push.  `drain_invariant` is the rule for what every pass preserves, and
`drain_some` says that the fuel is enough when each pushed item uses up one unit of a
measure on the state.

`explore expand` keeps a stack and what it has seen: a fresh item is expanded into items
to push, or ends the walk with an answer.  The fuel is enough under the same measure; when
the walk ends without an answer, what it has seen is closed, and an answer comes from an
item that was reached (`explore_spec`).

`sweep next` keeps a growing list and a cursor into it: each item adds those of its
successors that are not listed yet.  Its result is closed under `next`
(`sweep_closed`), and fuel for every item that can be listed is enough (`sweep_isSome`).
-/
import Mathlib.Data.List.Nodup
import Mathlib.Data.List.Perm.Subperm
import Mathlib.Data.Fintype.Card
import Mathlib.Order.WellFounded
import Mathlib.Data.Fintype.Order

namespace Alera.Theory.Worklist

open List

set_option autoImplicit false

universe u v

variable {α : Type u} {σ : Type v}

/-! ## A stack -/

/-- Works off the stack, last pushed first. -/
def drain (pass : α → σ → Option (List α × σ)) : Nat → List α → σ → Option σ
  | _, [], s => some s
  | 0, _ :: _, _ => none
  | fuel + 1, a :: stack, s =>
    (pass a s).bind fun result => drain pass fuel (result.1 ++ stack) result.2

section Drain

variable {pass : α → σ → Option (List α × σ)}

theorem drain_invariant (Inv : List α → σ → Prop)
    (preserved : ∀ a stack s pushed t, Inv (a :: stack) s → pass a s = some (pushed, t) →
      Inv (pushed ++ stack) t) :
    ∀ (fuel : Nat) (stack : List α) (s t : σ), Inv stack s → drain pass fuel stack s = some t →
      Inv [] t
  | _, [], s, t, inv, drained => by
      rw [drain] at drained
      exact Option.some.inj drained ▸ inv
  | 0, _ :: _, _, _, _, drained => by cases drained
  | fuel + 1, a :: stack, s, t, inv, drained => by
      obtain ⟨⟨pushed, m⟩, passed, rest⟩ := Option.bind_eq_some_iff.mp drained
      exact drain_invariant Inv preserved fuel (pushed ++ stack) m t
        (preserved a stack s pushed m inv passed) rest

/-- Every pass succeeds, and pays for what it pushes. -/
theorem drain_some (Inv : List α → σ → Prop) (measure : σ → Nat)
    (pays : ∀ a stack s, Inv (a :: stack) s → ∃ pushed t, pass a s = some (pushed, t) ∧
      Inv (pushed ++ stack) t ∧ pushed.length + measure t ≤ measure s) :
    ∀ (fuel : Nat) (stack : List α) (s : σ), Inv stack s → stack.length + measure s ≤ fuel →
      ∃ t, drain pass fuel stack s = some t ∧ Inv [] t
  | _, [], s, inv, _ => ⟨s, by rw [drain], inv⟩
  | 0, a :: stack, s, _, enough => by simp at enough
  | fuel + 1, a :: stack, s, inv, enough => by
      obtain ⟨pushed, t, passed, later, paid⟩ := pays a stack s inv
      rw [drain, passed]
      refine drain_some Inv measure pays fuel (pushed ++ stack) t later ?_
      rw [length_append]
      rw [length_cons] at enough
      omega

end Drain

/-! ## A stack of items to see once -/

section Explore

variable {β : Type v} [DecidableEq α]

/-- Expands every item once, last pushed first, until one has an answer. -/
def explore (expand : α → Except β (List α)) : Nat → List α → List α → Option (Except β (List α))
  | _, [], seen => some (.ok seen)
  | 0, _ :: _, _ => none
  | fuel + 1, a :: stack, seen =>
    if a ∈ seen then explore expand fuel stack seen
    else match expand a with
      | .error answer => some (.error answer)
      | .ok pushed => explore expand fuel (pushed ++ stack) (a :: seen)

variable {expand : α → Except β (List α)}

/-- Where every expansion pays for what it pushes the walk ends.  Without an answer it has expanded
everything it was given, and what that led to; an answer is that of an item with every property that
passes on to what is pushed. -/
theorem explore_spec {P : α → Prop}
    (passes : ∀ a pushed, P a → expand a = .ok pushed → ∀ b ∈ pushed, P b) (measure : List α → Nat)
    (pays : ∀ a seen pushed, a ∉ seen → expand a = .ok pushed →
      pushed.length + measure (a :: seen) ≤ measure seen)
    {fuel : Nat} {stack seen : List α} (enough : stack.length + measure seen ≤ fuel)
    (holds : ∀ a ∈ stack, P a)
    (sofar : ∀ a ∈ seen, ∃ pushed, expand a = .ok pushed ∧ ∀ b ∈ pushed, b ∈ seen ∨ b ∈ stack) :
    (∃ result, explore expand fuel stack seen = some (.ok result) ∧
      (∀ a ∈ stack, a ∈ result) ∧ (∀ a ∈ seen, a ∈ result) ∧
      ∀ a ∈ result, ∃ pushed, expand a = .ok pushed ∧ ∀ b ∈ pushed, b ∈ result) ∨
    ∃ a answer, explore expand fuel stack seen = some (.error answer) ∧ P a ∧
      expand a = .error answer := by
  induction fuel, stack, seen using explore.induct expand with
  | case1 fuel seen =>
    refine .inl ⟨seen, by rw [explore], nofun, fun a member => member, fun a member => ?_⟩
    obtain ⟨pushed, expanded, inside⟩ := sofar a member
    exact ⟨pushed, expanded, fun b pushedB => (inside b pushedB).resolve_right nofun⟩
  | case2 a stack seen => simp at enough
  | case3 fuel a stack seen again ih =>
    rw [explore, if_pos again]
    rw [length_cons] at enough
    have still : ∀ c ∈ seen, ∃ pushed, expand c = .ok pushed ∧
        ∀ b ∈ pushed, b ∈ seen ∨ b ∈ stack := by
      intro c member
      obtain ⟨pushed, expanded, inside⟩ := sofar c member
      refine ⟨pushed, expanded, fun b pushedB => ?_⟩
      rcases inside b pushedB with old | waiting
      · exact .inl old
      · rcases mem_cons.mp waiting with rfl | later
        · exact .inl again
        · exact .inr later
    obtain ⟨result, done, onStack, kept, closed⟩ | stopped :=
      ih (by omega) (fun b member => holds b (mem_cons_of_mem _ member)) still
    · refine .inl ⟨result, done, fun c member => ?_, kept, closed⟩
      rcases mem_cons.mp member with rfl | later
      · exact kept _ again
      · exact onStack c later
    · exact .inr stopped
  | case4 fuel a stack seen fresh answer stopped =>
    rw [explore, if_neg fresh, stopped]
    exact .inr ⟨a, answer, rfl, holds a mem_cons_self, stopped⟩
  | case5 fuel a stack seen fresh pushed expanded ih =>
    rw [explore, if_neg fresh, expanded]
    have paid := pays a seen pushed fresh expanded
    rw [length_cons] at enough
    have reached : ∀ b ∈ pushed ++ stack, P b := by
      intro b member
      rcases mem_append.mp member with new | old
      · exact passes a pushed (holds a mem_cons_self) expanded b new
      · exact holds b (mem_cons_of_mem _ old)
    have still : ∀ c ∈ a :: seen, ∃ pushedC, expand c = .ok pushedC ∧
        ∀ b ∈ pushedC, b ∈ a :: seen ∨ b ∈ pushed ++ stack := by
      intro c member
      rcases mem_cons.mp member with rfl | old
      · exact ⟨pushed, expanded, fun b pushedB => .inr (mem_append_left _ pushedB)⟩
      · obtain ⟨pushedC, expandedC, inside⟩ := sofar c old
        refine ⟨pushedC, expandedC, fun b pushedB => ?_⟩
        rcases inside b pushedB with old | waiting
        · exact .inl (mem_cons_of_mem _ old)
        · rcases mem_cons.mp waiting with rfl | later
          · exact .inl mem_cons_self
          · exact .inr (mem_append_right _ later)
    obtain ⟨result, done, onStack, kept, closed⟩ | stopped :=
      ih (by rw [length_append]; omega) reached still
    · refine .inl ⟨result, done, fun c member => ?_, fun c member => kept c (mem_cons_of_mem _ member), closed⟩
      rcases mem_cons.mp member with rfl | later
      · exact kept _ mem_cons_self
      · exact onStack c (mem_append_right _ later)
    · exact .inr stopped

end Explore

/-! ## A list with a cursor -/

section Sweep

variable [DecidableEq α]

/-- Lists an item that is not listed yet. -/
def visit (seen : List α) (a : α) : List α := if a ∈ seen then seen else seen ++ [a]

/-- Lists the successors of every item from the cursor on. -/
def sweep (next : α → List α) : Nat → Nat → List α → Option (List α)
  | 0, cursor, seen => if cursor < seen.length then none else some seen
  | fuel + 1, cursor, seen =>
    match seen[cursor]? with
    | none => some seen
    | some a => sweep next fuel (cursor + 1) ((next a).foldl visit seen)

theorem mem_visit {seen : List α} {a b : α} : b ∈ visit seen a ↔ b ∈ seen ∨ b = a := by
  rw [visit]
  split
  · rename_i listed
    exact ⟨.inl, fun either => either.elim (fun old => old) fun new => new ▸ listed⟩
  · rw [mem_append, mem_singleton]

theorem mem_foldl_visit {added seen : List α} {b : α} :
    b ∈ added.foldl visit seen ↔ b ∈ seen ∨ b ∈ added := by
  induction added generalizing seen with
  | nil => simp
  | cons a added ih => rw [foldl_cons, ih, mem_visit, mem_cons, or_assoc]

theorem nodup_foldl_visit {added seen : List α} (distinct : seen.Nodup) :
    (added.foldl visit seen).Nodup := by
  induction added generalizing seen with
  | nil => exact distinct
  | cons a added ih =>
    refine ih ?_
    rw [visit]
    split
    · exact distinct
    · rename_i fresh
      exact nodup_append.mpr ⟨distinct, nodup_singleton a, fun b listed c single same =>
        fresh (mem_singleton.mp single ▸ same ▸ listed)⟩

/-- What is listed keeps its place. -/
theorem foldl_visit_prefix (added seen : List α) : seen <+: added.foldl visit seen := by
  induction added generalizing seen with
  | nil => exact prefix_refl seen
  | cons a added ih =>
    refine List.IsPrefix.trans ?_ (ih (visit seen a))
    rw [visit]
    split
    · exact prefix_refl seen
    · exact prefix_append seen [a]

variable {next : α → List α}

/-- The result lists what it started with, and the successors of everything it lists. -/
theorem sweep_closed :
    ∀ (fuel cursor : Nat) (seen result : List α),
      (∀ i < cursor, ∀ a, seen[i]? = some a → ∀ b ∈ next a, b ∈ seen) →
      sweep next fuel cursor seen = some result →
      (∀ a ∈ seen, a ∈ result) ∧ ∀ a ∈ result, ∀ b ∈ next a, b ∈ result
  | 0, cursor, seen, result, handled, swept => by
      rw [sweep] at swept
      split at swept
      · cases swept
      · cases swept
        refine ⟨fun a listed => listed, fun a listed => ?_⟩
        obtain ⟨i, inside, rfl⟩ := mem_iff_getElem.mp listed
        exact handled i (by omega) _ (getElem?_eq_getElem inside)
  | fuel + 1, cursor, seen, result, handled, swept => by
      rw [sweep] at swept
      split at swept
      · rename_i past
        cases swept
        refine ⟨fun a listed => listed, fun a listed => ?_⟩
        obtain ⟨i, inside, rfl⟩ := mem_iff_getElem.mp listed
        have short := getElem?_eq_none_iff.mp past
        exact handled i (by omega) _ (getElem?_eq_getElem inside)
      · rename_i a found
        obtain ⟨kept, closed⟩ := sweep_closed fuel (cursor + 1) _ result (by
          intro i small b place c successor
          have inside : cursor < seen.length := (List.getElem?_eq_some_iff.mp found).1
          have same : ((next a).foldl visit seen)[i]? = seen[i]? := by
            obtain ⟨tail, whole⟩ := foldl_visit_prefix (next a) seen
            rw [← whole, getElem?_append_left (by omega)]
          rw [same] at place
          by_cases here : i = cursor
          · rw [here, found] at place
            cases place
            exact mem_foldl_visit.mpr (.inr successor)
          · exact mem_foldl_visit.mpr (.inl (handled i (by omega) b place c successor))) swept
        exact ⟨fun b listed => kept b (mem_foldl_visit.mpr (.inl listed)), closed⟩

/-- What holds of the items and is handed on to successors holds of all that is listed. -/
theorem sweep_induction {P : α → Prop} (keeps : ∀ a, P a → ∀ b ∈ next a, P b) {fuel cursor : Nat}
    {seen result : List α} (swept : sweep next fuel cursor seen = some result)
    (holds : ∀ a ∈ seen, P a) : ∀ a ∈ result, P a := by
  fun_induction sweep next fuel cursor seen with
  | case1 => cases swept
  | case2 | case3 =>
    cases swept
    exact holds
  | case4 _ _ _ a found ih =>
    refine ih swept fun b member => ?_
    obtain old | new := mem_foldl_visit.mp member
    · exact holds b old
    · exact keeps a (holds a (mem_of_getElem? found)) b new

/-- Fuel for every item of a list that `next` does not leave is enough. -/
theorem sweep_isSome {items : List α} (inside : ∀ a ∈ items, ∀ b ∈ next a, b ∈ items) :
    ∀ (fuel cursor : Nat) (seen : List α), seen.Nodup → (∀ a ∈ seen, a ∈ items) →
      items.length ≤ fuel + cursor → (sweep next fuel cursor seen).isSome
  | 0, cursor, seen, distinct, listed, enough => by
      have bound : seen.length ≤ items.length := (distinct.subperm listed).length_le
      rw [sweep, if_neg (by omega)]
      rfl
  | fuel + 1, cursor, seen, distinct, listed, enough => by
      rw [sweep]
      split
      · rfl
      · rename_i a found
        refine sweep_isSome inside fuel (cursor + 1) _ (nodup_foldl_visit distinct) (fun b member => ?_)
          (by omega)
        obtain old | new := mem_foldl_visit.mp member
        · exact listed b old
        · exact inside a (listed a (mem_of_getElem? found)) b new

end Sweep

end Alera.Theory.Worklist

/-! ## Sorting by dependencies in passes

Items carry an id and the ids they depend on.  `sort` goes over the items again and
again and takes each one whose dependencies have all been taken, until it has all of
them or a pass takes none.

* `sort_some`: what it returns is the items in another order, every dependency before
  what depends on it.
* `sort_eq_none_iff`: it gives up exactly when the dependencies have a cycle.
-/

namespace Alera.Theory.TopologicalOrder

open List

universe u v

variable {α : Type u} {ι : Type v} (idOf : α → ι) (depsOf : α → List ι)

/-- `a` depends on `b`. -/
def Edge (items : List α) (a b : ι) : Prop := ∃ item ∈ items, idOf item = a ∧ b ∈ depsOf item

/-- The dependencies have a cycle. -/
def HasCycle (items : List α) : Prop := ∃ a, Relation.TransGen (Edge idOf depsOf items) a a

/-- Every item comes behind what it depends on. -/
def DepsFirst (ordered : List α) : Prop :=
  ∀ before item after, ordered = before ++ item :: after →
    ∀ dep ∈ depsOf item, dep ∈ before.map idOf

/-- Some of the items, each at most once, dependencies first. -/
structure Taken (items taken : List α) : Prop where
  among : ∀ item ∈ taken, item ∈ items
  distinct : (taken.map idOf).Nodup
  depsFirst : DepsFirst idOf depsOf taken

variable {idOf depsOf}

variable {items : List α}

/-- A finite set of ids each of which depends on another of the set has a cycle. -/
theorem hasCycle_of_stuck (left : ι → Prop) {start : ι} (known : ∀ a, left a → a ∈ items.map idOf)
    (starts : left start) (next : ∀ a, left a → ∃ b, left b ∧ Edge idOf depsOf items a b) :
    HasCycle idOf depsOf items := by
  by_contra acyclic
  -- On the finite type of the items' ids, being reached is transitive and irreflexive.
  let Id := {a // a ∈ items.map idOf}
  let below : Id → Id → Prop := fun x y => Relation.TransGen (Edge idOf depsOf items) y.1 x.1
  have : Finite Id := (finite_toSet (items.map idOf)).to_subtype
  have : Std.Irrefl below := ⟨fun x cycle => acyclic ⟨x.1, cycle⟩⟩
  have founded : WellFounded below := Finite.wellFounded_of_trans_of_irrefl below
  obtain ⟨least, isLeft, minimal⟩ := founded.has_min {x : Id | left x.1}
    ⟨⟨start, known start starts⟩, starts⟩
  obtain ⟨b, leftB, edge⟩ := next least.1 isLeft
  exact minimal ⟨b, known b leftB⟩ leftB (.single edge)

theorem taken_nil (items : List α) : Taken idOf depsOf items [] where
  among := nofun
  distinct := nodup_nil
  depsFirst := by
    intro before item after split
    cases before <;> cases split

variable {taken : List α}

theorem Taken.perm (sofar : Taken idOf depsOf items taken) (all : items.length ≤ taken.length) :
    taken.Perm items := by
  have distinct : taken.Nodup := List.Nodup.of_map idOf sofar.distinct
  exact (subperm_of_subset distinct sofar.among).perm_of_length_le all

variable {item : α}

theorem DepsFirst.snoc (first : DepsFirst idOf depsOf taken)
    (ready : ∀ dep ∈ depsOf item, dep ∈ taken.map idOf) :
    DepsFirst idOf depsOf (taken ++ [item]) := by
  intro before other after split
  rcases eq_nil_or_concat after with rfl | ⟨earlier, last, rfl⟩
  · obtain ⟨rfl, same⟩ := append_inj' split rfl
    obtain rfl := (List.cons.inj same).1
    exact ready
  · rw [concat_eq_append, ← cons_append, ← append_assoc] at split
    exact first before other earlier (append_inj' split rfl).1

/-- Whatever an item reaches comes before it. -/
theorem DepsFirst.reached_before {before after : List α} {b : ι}
    (first : DepsFirst idOf depsOf (before ++ item :: after))
    (distinct : ((before ++ item :: after).map idOf).Nodup)
    (path : Relation.TransGen (Edge idOf depsOf (before ++ item :: after)) (idOf item) b) :
    b ∈ before.map idOf := by
  have same : ∀ x ∈ before ++ item :: after, ∀ y ∈ before ++ item :: after,
      idOf x = idOf y → x = y := fun x inX y inY =>
    inj_on_of_nodup_map distinct inX inY
  induction path with
  | single edge =>
    obtain ⟨found, member, named, depends⟩ := edge
    obtain rfl := same found member item (mem_append_right _ mem_cons_self) named
    exact first before found after rfl _ depends
  | tail _ edge ih =>
    obtain ⟨found, member, named, depends⟩ := edge
    obtain ⟨earlier, inBefore, namedEarlier⟩ := mem_map.mp ih
    obtain rfl := same found member earlier (mem_append_left _ inBefore)
      (named.trans namedEarlier.symm)
    obtain ⟨front, back, rfl⟩ := append_of_mem inBefore
    have inFront := first front found (back ++ item :: after) (by simp) _ depends
    rw [map_append]
    exact mem_append_left _ inFront

/-! ## The sort -/

variable [DecidableEq ι] (idOf depsOf)

/-- One pass over the items, with those taken so far. -/
def pass : List α → List α → List α
  | [], taken => taken
  | item :: rest, taken =>
    if idOf item ∉ taken.map idOf ∧ ∀ dep ∈ depsOf item, dep ∈ taken.map idOf then
      pass rest (taken ++ [item])
    else pass rest taken

/-- Passes until all items are taken; `none` when a pass takes nothing. -/
def sortWithin (items : List α) : Nat → List α → Option (List α)
  | 0, taken => if taken.length < items.length then none else some taken
  | fuel + 1, taken =>
    if taken.length < items.length then
      if (pass idOf depsOf items taken).length = taken.length then none
      else sortWithin items fuel (pass idOf depsOf items taken)
    else some taken

/-- Every pass but the last takes an item, so there are no more passes than items. -/
def sort (items : List α) : Option (List α) := sortWithin idOf depsOf items items.length []

variable {idOf depsOf}

theorem Taken.pass {rest : List α} (sofar : Taken idOf depsOf items taken)
    (within : ∀ item ∈ rest, item ∈ items) :
    Taken idOf depsOf items (pass idOf depsOf rest taken) := by
  induction rest generalizing taken with
  | nil => exact sofar
  | cons item rest ih =>
    have later : ∀ other ∈ rest, other ∈ items := fun other member => within other (.tail _ member)
    rw [TopologicalOrder.pass]
    split
    next ready =>
      refine ih ⟨?_, ?_, sofar.depsFirst.snoc ready.2⟩ later
      · intro other member
        rcases mem_append.mp member with old | new
        · exact sofar.among other old
        · rw [mem_singleton.mp new]
          exact within item (.head _)
      · rw [map_append, map_singleton, nodup_append_comm, singleton_append, nodup_cons]
        exact ⟨ready.1, sofar.distinct⟩
    · exact ih sofar later

theorem pass_extends (idOf : α → ι) (depsOf : α → List ι) (rest taken : List α) :
    taken <+: pass idOf depsOf rest taken := by
  induction rest generalizing taken with
  | nil => exact prefix_rfl
  | cons item rest ih =>
    rw [pass]
    split
    · exact (prefix_append taken [item]).trans (ih _)
    · exact ih taken

/-- A pass that takes nothing found nothing to take. -/
theorem stuck_of_pass {rest : List α} (same : (pass idOf depsOf rest taken).length = taken.length)
    (member : item ∈ rest) (left : idOf item ∉ taken.map idOf) :
    ∃ dep ∈ depsOf item, dep ∉ taken.map idOf := by
  induction rest with
  | nil => cases member
  | cons other rest ih =>
    rw [pass] at same
    split at same
    · have longer := (pass_extends idOf depsOf rest (taken ++ [other])).length_le
      rw [length_append, length_singleton] at longer
      omega
    next notReady =>
      rcases mem_cons.mp member with rfl | member
      · by_contra ready
        exact notReady ⟨left, fun dep depends => by
          by_contra missing
          exact ready ⟨dep, depends, missing⟩⟩
      · exact ih same member

/-! ## The result -/

variable {ordered : List α}

theorem sortWithin_some {fuel : Nat} (sofar : Taken idOf depsOf items taken)
    (sorted : sortWithin idOf depsOf items fuel taken = some ordered) :
    Taken idOf depsOf items ordered ∧ items.length ≤ ordered.length := by
  induction fuel generalizing taken with
  | zero =>
    rw [sortWithin] at sorted
    split at sorted
    · cases sorted
    next all =>
      cases sorted
      exact ⟨sofar, Nat.not_lt.mp all⟩
  | succ fuel ih =>
    rw [sortWithin] at sorted
    split at sorted
    · split at sorted
      · cases sorted
      · exact ih (sofar.pass fun _ member => member) sorted
    next all =>
      cases sorted
      exact ⟨sofar, Nat.not_lt.mp all⟩

/-- **The result is the items, dependencies first.** -/
theorem sort_some (sorted : sort idOf depsOf items = some ordered) :
    ordered.Perm items ∧ (ordered.map idOf).Nodup ∧ DepsFirst idOf depsOf ordered := by
  obtain ⟨taken, all⟩ := sortWithin_some (taken_nil items) sorted
  exact ⟨taken.perm all, taken.distinct, taken.depsFirst⟩

/-- Giving up leaves a state in which nothing can be taken. -/
theorem sortWithin_none {fuel : Nat} (sofar : Taken idOf depsOf items taken)
    (enough : items.length ≤ taken.length + fuel)
    (gaveUp : sortWithin idOf depsOf items fuel taken = none) :
    ∃ stuck, Taken idOf depsOf items stuck ∧ stuck.length < items.length ∧
      (pass idOf depsOf items stuck).length = stuck.length := by
  induction fuel generalizing taken with
  | zero =>
    rw [sortWithin] at gaveUp
    split at gaveUp
    · omega
    · cases gaveUp
  | succ fuel ih =>
    rw [sortWithin] at gaveUp
    split at gaveUp
    next more =>
      split at gaveUp
      next same => exact ⟨taken, sofar, more, same⟩
      next progress =>
        have longer := (pass_extends idOf depsOf items taken).length_le
        exact ih (sofar.pass fun _ member => member) (by omega) gaveUp
    · cases gaveUp

/-! ## Cycles -/

/-- Dependencies first means that they are found at smaller positions. -/
theorem idxOf_lt_of_edge (perm : ordered.Perm items) (distinct : (ordered.map idOf).Nodup)
    (first : DepsFirst idOf depsOf ordered) {a b : ι} (edge : Edge idOf depsOf items a b) :
    (ordered.map idOf).idxOf b < (ordered.map idOf).idxOf a := by
  obtain ⟨item, member, rfl, depends⟩ := edge
  obtain ⟨before, after, rfl⟩ := append_of_mem (perm.mem_iff.mpr member)
  have earlier := first before item after rfl b depends
  rw [map_append, map_cons] at distinct ⊢
  have notEarlier : idOf item ∉ before.map idOf := fun inside =>
    (nodup_append'.mp distinct).2.2 inside (mem_cons_self ..)
  rw [idxOf_append_of_mem earlier, idxOf_append_of_notMem notEarlier, idxOf_cons_self]
  exact idxOf_lt_length_of_mem earlier

theorem not_hasCycle_of_ordered (perm : ordered.Perm items) (distinct : (ordered.map idOf).Nodup)
    (first : DepsFirst idOf depsOf ordered) :
    ¬ HasCycle idOf depsOf items := by
  rintro ⟨a, cycle⟩
  have descends : ∀ {x y}, Relation.TransGen (Edge idOf depsOf items) x y →
      (ordered.map idOf).idxOf y < (ordered.map idOf).idxOf x := by
    intro x y path
    induction path with
    | single edge => exact idxOf_lt_of_edge perm distinct first edge
    | tail _ edge ih => exact (idxOf_lt_of_edge perm distinct first edge).trans ih
  exact Nat.lt_irrefl _ (descends cycle)

/-- **The sort gives up exactly when there is a cycle**, if every dependency is one of
the items. -/
theorem sort_eq_none_iff (distinct : (items.map idOf).Nodup)
    (closed : ∀ item ∈ items, ∀ dep ∈ depsOf item, dep ∈ items.map idOf) :
    sort idOf depsOf items = none ↔ HasCycle idOf depsOf items := by
  constructor
  · intro gaveUp
    obtain ⟨stuck, taken, short, same⟩ :=
      sortWithin_none (taken_nil items) (by simp) gaveUp
    -- What is left is closed under some dependency of each of its items.
    have someLeft : ∃ item ∈ items, idOf item ∉ stuck.map idOf := by
      by_contra all
      have within : items.map idOf ⊆ stuck.map idOf := by
        intro a member
        obtain ⟨item, inItems, rfl⟩ := mem_map.mp member
        by_contra missing
        exact all ⟨item, inItems, missing⟩
      have shorter := (subperm_of_subset distinct within).length_le
      rw [length_map, length_map] at shorter
      omega
    obtain ⟨item, member, missing⟩ := someLeft
    have starts : idOf item ∈ items.map idOf ∧ idOf item ∉ stuck.map idOf :=
      ⟨mem_map_of_mem member, missing⟩
    refine hasCycle_of_stuck (fun a => a ∈ items.map idOf ∧ a ∉ stuck.map idOf)
      (fun _ inside => inside.1) starts ?_
    rintro a ⟨inItems, notTaken⟩
    obtain ⟨other, otherMember, rfl⟩ := mem_map.mp inItems
    obtain ⟨dep, depends, left⟩ := stuck_of_pass same otherMember notTaken
    exact ⟨dep, ⟨closed other otherMember dep depends, left⟩, other, otherMember, rfl, depends⟩
  · intro cycle
    cases sorted : sort idOf depsOf items with
    | none => rfl
    | some ordered =>
      obtain ⟨perm, distinctOrdered, first⟩ := sort_some sorted
      exact absurd cycle (not_hasCycle_of_ordered perm distinctOrdered first)

end Alera.Theory.TopologicalOrder
