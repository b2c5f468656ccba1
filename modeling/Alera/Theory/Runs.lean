/-
# Alera.Theory.Runs -- finite runs of a machine, and what they preserve

A machine is a partial step function `step : σ → α → Option σ`.  The action
carries every outcome the machine does not decide itself (a scheduler's choice,
a full queue, a failed write), so one step function describes all of its
behaviours; `none` says the action is not enabled in that state.

`run step s as` executes an action list.  Every state a run passes through is
itself the end of a shorter run (`run_append`), so a statement about the end of
every run is a statement about every reachable state.

* `run_invariant`: what every enabled step preserves, every run preserves.
* `run_invariant_of_guarded`: the same for runs all of whose steps meet a
  condition on the action and the state before it (`Guarded`); `guarded_of_steps`
  goes the other way.

A machine that serves many requests at once keeps them in a table of slots, of
which a step rewrites one (`forall_slots_update`).  A machine that accepts every
input and answers it is run by `transduce`.
-/
import Mathlib.Data.List.Basic
import Mathlib.Logic.Function.Basic
import Mathlib.Data.List.Forall2

namespace Alera.Theory

set_option autoImplicit false

universe u v w x

variable {σ : Type u} {α : Type v}

/-- A part of a step that is enabled, and the rest of it. -/
theorem of_bind {β : Type w} {x : Option α} {f : α → Option β} {b : β} (done : x.bind f = some b) :
    ∃ a, x = some a ∧ f a = some b := Option.bind_eq_some_iff.mp done

theorem of_bind₂ {β : Type w} {γ : Type x} {o : Option α} {f : α → Option β} {g : α → β → Option γ}
    {c : γ} (done : (o.bind fun a => (f a).bind (g a)) = some c) :
    ∃ a, o = some a ∧ ∃ b, f a = some b ∧ g a b = some c :=
  (of_bind done).imp fun _ rest => rest.imp_right of_bind

theorem of_map {β : Type w} {x : Option α} {f : α → β} {b : β} (done : x.map f = some b) :
    ∃ a, x = some a ∧ f a = b := Option.map_eq_some_iff.mp done

section Guards

variable {c : Prop} [Decidable c] {x : Option α} {a : α}

/-- A step that is refused in one case, and was not. -/
theorem of_unless (done : (if c then none else x) = some a) : ¬ c ∧ x = some a :=
  Option.ite_none_left_eq_some.mp done

theorem of_when (done : (if c then x else none) = some a) : c ∧ x = some a :=
  Option.ite_none_right_eq_some.mp done

end Guards

/-- Execute an action list, stopping at the first action that is not enabled. -/
def run (step : σ → α → Option σ) : σ → List α → Option σ
  | s, [] => some s
  | s, a :: as => (step s a).bind fun t => run step t as

section Run

variable {step : σ → α → Option σ}

@[simp] theorem run_nil (s : σ) : run step s [] = some s := rfl

@[simp] theorem run_cons (s : σ) (a : α) (as : List α) :
    run step s (a :: as) = (step s a).bind fun t => run step t as := rfl

theorem run_append (s : σ) (as bs : List α) :
    run step s (as ++ bs) = (run step s as).bind fun t => run step t bs := by
  induction as generalizing s with
  | nil => rfl
  | cons a as ih =>
    simp only [List.cons_append, run_cons, Option.bind_assoc]
    exact Option.bind_congr fun t _ => ih t

/-- What every enabled step preserves, every run preserves. -/
theorem run_invariant (Inv : σ → Prop) (preserved : ∀ s a t, Inv s → step s a = some t → Inv t) :
    ∀ (as : List α) (s t : σ), Inv s → run step s as = some t → Inv t
  | [], s, t, inv, ran => by
      cases ran
      exact inv
  | a :: as, s, t, inv, ran => by
      obtain ⟨m, stepped, rest⟩ := of_bind ran
      exact run_invariant Inv preserved as m t (preserved s a m inv stepped) rest

/-- Every step of the run meets `Meets`, a condition on the action and on the
state before it. -/
def Guarded (step : σ → α → Option σ) (Meets : σ → α → Prop) : σ → List α → Prop
  | _, [] => True
  | s, a :: as => Meets s a ∧ ∀ t, step s a = some t → Guarded step Meets t as

/-- A condition that can be decided at each step can be decided along a run. -/
instance Guarded.decidable {Meets : σ → α → Prop} [∀ s a, Decidable (Meets s a)] :
    (s : σ) → (as : List α) → Decidable (Guarded step Meets s as)
  | _, [] => .isTrue trivial
  | s, a :: as =>
    have : Decidable (∀ t, step s a = some t → Guarded step Meets t as) :=
      match step s a with
      | none => .isTrue nofun
      | some t =>
        have : Decidable (Guarded step Meets t as) := Guarded.decidable t as
        decidable_of_iff (Guarded step Meets t as)
          ⟨fun holds _ same => Option.some.inj same ▸ holds, fun holds => holds t rfl⟩
    inferInstanceAs (Decidable (_ ∧ _))

variable {Meets : σ → α → Prop}

/-- What every enabled step that meets the condition preserves, every run whose
steps all meet it preserves. -/
theorem run_invariant_of_guarded (Inv : σ → Prop)
    (preserved : ∀ s a t, Inv s → Meets s a → step s a = some t → Inv t) :
    ∀ (as : List α) (s t : σ), Guarded step Meets s as → Inv s → run step s as = some t → Inv t
  | [], s, t, _, inv, ran => by
      cases ran
      exact inv
  | a :: as, s, t, guarded, inv, ran => by
      obtain ⟨m, stepped, rest⟩ := of_bind ran
      obtain ⟨meets, later⟩ := guarded
      exact run_invariant_of_guarded Inv preserved as m t (later m stepped)
        (preserved s a m inv meets stepped) rest

theorem Guarded.append {as bs : List α} {s t : σ}
    (guarded : Guarded step Meets s (as ++ bs)) (ran : run step s as = some t) :
    Guarded step Meets s as ∧ Guarded step Meets t bs := by
  induction as generalizing s with
  | nil =>
    cases ran
    exact ⟨trivial, guarded⟩
  | cons a as ih =>
    obtain ⟨m, stepped, rest⟩ := of_bind ran
    obtain ⟨meets, later⟩ := guarded
    refine ⟨⟨meets, fun m' stepped' => ?_⟩, (ih (later m stepped) rest).2⟩
    obtain rfl : m = m' := Option.mem_unique stepped stepped'
    exact (ih (later m stepped) rest).1

/-- A condition on actions alone. -/
theorem guarded_of_forall {Meets : α → Prop} {as : List α} (meets : ∀ a ∈ as, Meets a) (s : σ) :
    Guarded step (fun _ a => Meets a) s as := by
  induction as generalizing s with
  | nil => trivial
  | cons a as ih =>
    exact ⟨meets a List.mem_cons_self, fun t _ => ih (fun b member => meets b (.tail _ member)) t⟩

/-- A run that gets to its end meets a condition that each of its enabled steps meets. -/
theorem guarded_of_steps {as : List α} {s t : σ} (ran : run step s as = some t)
    (meets : ∀ before a after m n, as = before ++ a :: after → run step s before = some m →
      step m a = some n → Meets m a) : Guarded step Meets s as := by
  induction as generalizing s with
  | nil => trivial
  | cons a as ih =>
    obtain ⟨m, stepped, rest⟩ := of_bind ran
    refine ⟨meets [] a as s m rfl rfl stepped, fun m' stepped' => ?_⟩
    obtain rfl : m = m' := Option.mem_unique stepped stepped'
    refine ih rest fun before b after k n split ranBefore => ?_
    refine meets (a :: before) b after k n (by rw [split, List.cons_append]) ?_
    rw [run_cons, stepped]
    exact ranBefore

end Run

/-- What holds of every entry of a log and of the next one. -/
theorem forall_mem_snoc {P : α → Prop} {log : List α} {entry : α} (old : ∀ a ∈ log, P a)
    (new : P entry) : ∀ a ∈ log ++ [entry], P a :=
  List.forall_mem_append.mpr ⟨old, List.forall_mem_singleton.mpr new⟩

section Slots

variable {ι : Type u} [DecidableEq ι] {slots : ι → α} {i j : ι} {a b : α}

/-- What is in a slot was put there by the last step or was there before. -/
theorem of_update (found : Function.update slots i a j = b) : j = i ∧ a = b ∨ j ≠ i ∧ slots j = b := by
  rw [Function.update_apply] at found
  exact ite_eq_iff.mp found

/-- What holds of the slot that a step rewrites, and of every slot before. -/
@[elab_as_elim]
theorem update_cases {motive : ι → α → Prop} (here : motive i a) (others : ∀ j, motive j (slots j))
    (j : ι) : motive j (Function.update slots i a j) :=
  (Function.forall_update_iff slots motive).mpr ⟨here, fun j _ => others j⟩ j

/-- What holds of every request in flight, and of the one that a step puts into a slot, holds of
every request afterwards. -/
theorem forall_slots_update {Request : Type v} {Good : Request → Prop}
    {slots : ι → Option Request} {request : Option Request}
    (old : ∀ j r, slots j = some r → Good r) (new : ∀ r, request = some r → Good r) :
    ∀ j r, Function.update slots i request j = some r → Good r :=
  update_cases new old

end Slots

/-! ## Machines that answer each input -/

section Machines

variable {β : Type w}

/-- The answers of a machine that is fed one input after the other, and the state
it is left in. -/
def transduce (machine : σ → α → β × σ) : σ → List α → List β × σ
  | s, [] => ([], s)
  | s, a :: as =>
    ((machine s a).1 :: (transduce machine (machine s a).2 as).1,
      (transduce machine (machine s a).2 as).2)

variable {machine : σ → α → β × σ}

theorem transduce_append (s : σ) (as bs : List α) :
    transduce machine s (as ++ bs) =
      ((transduce machine s as).1 ++ (transduce machine (transduce machine s as).2 bs).1,
        (transduce machine (transduce machine s as).2 bs).2) := by
  induction as generalizing s with
  | nil => rfl
  | cons a as ih => simp [transduce, ih]

/-- Two machines on one state type whose answers mean the same, input by input,
answer every sequence alike and end in the same state. -/
theorem transduce_agree {Meaning : Type x} {other : σ → α → β × σ} (meaning : β → Meaning)
    (agree : ∀ s a,
      meaning (machine s a).1 = meaning (other s a).1 ∧ (machine s a).2 = (other s a).2)
    (s : σ) (as : List α) :
    (transduce machine s as).1.map meaning = (transduce other s as).1.map meaning ∧
      (transduce machine s as).2 = (transduce other s as).2 := by
  induction as generalizing s with
  | nil => exact ⟨rfl, rfl⟩
  | cons a as ih =>
    obtain ⟨answers, states⟩ := agree s a
    obtain ⟨laterAnswers, laterStates⟩ := ih (other s a).2
    simp only [transduce, List.map_cons, states, answers, laterAnswers, laterStates, and_self]

/-- An invariant that speaks of the inputs so far. -/
theorem transduce_history (Inv : List α → σ → Prop)
    (steps : ∀ past s a, Inv past s → Inv (past ++ [a]) (machine s a).2)
    {past : List α} {s : σ} (start : Inv past s) (as : List α) :
    Inv (past ++ as) (transduce machine s as).2 := by
  induction as generalizing past s with
  | nil => simpa [transduce] using start
  | cons a as ih =>
    have later := ih (steps past s a start)
    rwa [List.append_assoc] at later

/-- What every step preserves, every run preserves. -/
theorem transduce_invariant (Inv : σ → Prop) (steps : ∀ s a, Inv s → Inv (machine s a).2)
    {s : σ} (start : Inv s) (as : List α) : Inv (transduce machine s as).2 := by
  induction as generalizing s with
  | nil => exact start
  | cons a as ih => exact ih (steps s a start)

end Machines

/-! ## Computations that succeed

What is known of the parts of a computation in `Except` that returns a value: every step
of it has returned one (`bind_ok`), also under a map over a list (`mapM_ok`).  What a loop
with a state keeps from one element to the next holds at its end (`foldlM_ok`).
-/

variable {ε α β : Type} {x : Except ε α} {f : α → Except ε β}

/-- A step of a sequence that succeeds. -/
theorem bind_ok {b : β} (passed : (x >>= f) = .ok b) : ∃ a, x = .ok a ∧ f a = .ok b := by
  cases x with
  | error message => cases passed
  | ok a => exact ⟨a, rfl, passed⟩

/-- The first of two checks that both succeed, and the rest. -/
theorem seq_ok {x : Except ε Unit} {f : Unit → Except ε β} {b : β}
    (passed : (x >>= f) = .ok b) : x = .ok () ∧ f () = .ok b := by
  obtain ⟨⟨⟩, first, rest⟩ := bind_ok passed
  exact ⟨first, rest⟩

theorem seq_ok₂ {x : Except ε Unit} {f : Unit → Except ε Unit} {g : Unit → Unit → Except ε β} {b : β}
    (passed : (x >>= fun u => f u >>= g u) = .ok b) : x = .ok () ∧ f () = .ok () ∧ g () () = .ok b :=
  (seq_ok passed).imp_right seq_ok

theorem unless_ok {c : Prop} [Decidable c] {e : ε} {a : α}
    (passed : (if c then .error e else x) = .ok a) : ¬ c ∧ x = .ok a := by
  split at passed
  · cases passed
  · exact ⟨‹_›, passed⟩

theorem when_ok {c : Prop} [Decidable c] {e : ε} {a : α}
    (passed : (if c then x else .error e) = .ok a) : c ∧ x = .ok a := by
  split at passed
  · exact ⟨‹_›, passed⟩
  · cases passed

theorem toOption_bind (x : Except ε α) (f : α → Except ε β) :
    (x >>= f).toOption = x.toOption.bind fun a => (f a).toOption := by
  cases x <;> rfl

theorem ok_bind (a : α) (f : α → Except ε β) : ((Except.ok a : Except ε α) >>= f) = f a := rfl

variable {xs : List α} {ys : List β}

theorem mapM_ok (mapped : xs.mapM f = .ok ys) : List.Forall₂ (fun x y => f x = .ok y) xs ys := by
  induction xs generalizing ys with
  | nil =>
    cases mapped
    exact .nil
  | cons x xs ih =>
    rw [List.mapM_cons] at mapped
    obtain ⟨y, first, mapped⟩ := bind_ok mapped
    obtain ⟨rest, later, mapped⟩ := bind_ok mapped
    cases mapped
    exact .cons first (ih later)

theorem forM_ok {f : α → Except ε Unit} (passed : xs.forM f = .ok ()) : ∀ x ∈ xs, f x = .ok () := by
  induction xs with
  | nil => nofun
  | cons x xs ih =>
    obtain ⟨here, later⟩ := seq_ok passed
    exact List.forall_mem_cons.mpr ⟨here, ih later⟩

/-- The invariant is about the elements that a loop has been through and its state. -/
theorem foldlM_ok {f : β → α → Except ε β} {start final : β}
    (looped : xs.foldlM f start = .ok final) (Inv : List α → β → Prop) (initially : Inv [] start)
    (step : ∀ done x state next, x ∈ xs → Inv done state → f state x = .ok next →
      Inv (done ++ [x]) next) : Inv xs final := by
  have general : ∀ (todo done : List α) (state : β), done ++ todo = xs → Inv done state →
      todo.foldlM f state = .ok final → Inv xs final := by
    intro todo
    induction todo with
    | nil =>
      intro done state whole inv looped
      cases looped
      rw [List.append_nil] at whole
      exact whole ▸ inv
    | cons x todo ih =>
      intro done state whole inv looped
      obtain ⟨next, here, later⟩ := bind_ok looped
      have inside : x ∈ xs := by
        rw [← whole]
        exact List.mem_append_right done List.mem_cons_self
      refine ih (done ++ [x]) next ?_ (step done x state next inside inv here) later
      rw [List.append_assoc, List.singleton_append, whole]
  exact general xs [] start rfl initially looped

theorem forall₂_mem_left {R : α → β → Prop}
    (related : List.Forall₂ R xs ys) {x : α} (member : x ∈ xs) : ∃ y ∈ ys, R x y := by
  induction related with
  | nil => cases member
  | cons here _ ih =>
    rcases List.mem_cons.mp member with rfl | member
    · exact ⟨_, List.mem_cons_self, here⟩
    · obtain ⟨y, inRest, holds⟩ := ih member
      exact ⟨y, List.mem_cons_of_mem _ inRest, holds⟩

theorem forall₂_mem_right {R : α → β → Prop}
    (related : List.Forall₂ R xs ys) {y : β} (member : y ∈ ys) : ∃ x ∈ xs, R x y :=
  forall₂_mem_left related.flip member

end Alera.Theory
