/-
# Alera.Theory.StreamCodec -- readers of a stream that arrives in pieces

A stream is a list of items, each a byte string that stands for a value; which byte
strings are items may depend on a mode that the items themselves change
(`Stream`).  A reader is handed the stream in chunks and takes values out of what it
holds, one after the other, until it finds none.

`Reader` says what such a reader has to do for one item: take it when it holds all of
it, and take nothing when it holds only a beginning.  Then it reads every stream back,
however it is cut (`Reader.feed_eq`).
-/
import Mathlib.Data.List.Basic

namespace Alera.Theory

open List

set_option autoImplicit false

universe u v w x

variable {σ : Type u} {β : Type v} {Value : Type w} {Mode : Type x}

/-- Take values until there is none, at most `fuel` times. -/
def takeAll (take : σ → Option Value × σ) : Nat → σ → List Value × σ
  | 0, s => ([], s)
  | fuel + 1, s =>
    match take s with
    | (none, s) => ([], s)
    | (some value, s) => ((value :: (takeAll take fuel s).1), (takeAll take fuel s).2)

/-- Hand over chunks one after the other. -/
def feed (add : σ → List β → List Value × σ) : σ → List (List β) → List Value × σ
  | s, [] => ([], s)
  | s, chunk :: chunks => ((add s chunk).1 ++ (feed add (add s chunk).2 chunks).1, (feed add (add s chunk).2 chunks).2)

section

variable (Item : Mode → List β → Value → Mode → Prop)

/-- Items one after the other, from one mode to another. -/
inductive Stream : Mode → List (List β × Value) → Mode → Prop where
  | nil (mode : Mode) : Stream mode [] mode
  | cons {mode next last : Mode} {bytes : List β} {value : Value} {items : List (List β × Value)}
      (item : Item mode bytes value next) (later : Stream next items last) :
      Stream mode ((bytes, value) :: items) last

variable {last : Mode} {items : List (List β × Value)}

theorem Stream.append {first middle : Mode} {items' : List (List β × Value)}
    (before : Stream Item first items middle) (after : Stream Item middle items' last) :
    Stream Item first (items ++ items') last := by
  induction before with
  | nil mode => exact after
  | cons item later ih => exact .cons item (ih after)

variable {mode : Mode}

/-- Items that leave the mode as it is. -/
theorem Stream.of_forall (all : ∀ item ∈ items, Item mode item.1 item.2 mode) :
    Stream Item mode items mode := by
  induction items with
  | nil => exact .nil mode
  | cons item items ih =>
    apply Stream.cons
    · exact all item mem_cons_self
    · exact ih fun other member => all other (.tail _ member)

/-- What a reader does with what it holds: `Holds s mode unread` says that it is in the mode and has
read all but these bytes. -/
structure Reader (take : σ → Option Value × σ) (Holds : σ → Mode → List β → Prop) : Prop where
  nonempty : ∀ {mode bytes value next}, Item mode bytes value next → bytes ≠ []
  complete : ∀ {s mode bytes value next rest}, Item mode bytes value next → Holds s mode (bytes ++ rest) →
    ∃ t, take s = (some value, t) ∧ Holds t next rest
  waits : ∀ {s mode bytes value next part rest}, Item mode bytes value next → bytes = part ++ rest →
    rest ≠ [] → Holds s mode part → ∃ t, take s = (none, t) ∧ Holds t mode part
  idle : ∀ {s mode}, Holds s mode [] → ∃ t, take s = (none, t) ∧ Holds t mode []

variable {Item} {take : σ → Option Value × σ} {Holds : σ → Mode → List β → Prop}

def bytesOf (items : List (List β × Value)) : List β := items.flatMap Prod.fst

/-- A reader that holds the beginning of a stream takes the items that are complete, and keeps the
beginning of the rest. -/
theorem Reader.takeAll_eq (reader : Reader Item take Holds) (stream : Stream Item mode items last)
    {s : σ} {unread later : List β} (holds : Holds s mode unread)
    (whole : unread ++ later = bytesOf items) {fuel : Nat} (enough : unread.length < fuel) :
    ∃ done todo middle t rest, items = done ++ todo ∧ takeAll take fuel s = (done.map Prod.snd, t) ∧
      Stream Item middle todo last ∧ Holds t middle rest ∧ rest ++ later = bytesOf todo ∧
      (rest = bytesOf todo → todo = []) := by
  induction stream generalizing s unread fuel with
  | nil mode =>
    obtain ⟨rfl, rfl⟩ := append_eq_nil_iff.mp whole
    obtain ⟨fuel, rfl⟩ : ∃ n, fuel = n + 1 := ⟨fuel - 1, by omega⟩
    obtain ⟨t, nothing, holds'⟩ := reader.idle holds
    refine ⟨[], [], mode, t, [], rfl, ?_, .nil mode, holds', rfl, fun _ => rfl⟩
    simp [takeAll, nothing]
  | @cons mode next last bytes value items item stream ih =>
    obtain ⟨fuel, rfl⟩ : ∃ n, fuel = n + 1 := ⟨fuel - 1, by omega⟩
    have cut : unread ++ later = bytes ++ bytesOf items := whole
    have whenThere : ∀ rest, unread = bytes ++ rest → rest ++ later = bytesOf items →
        ∃ done todo middle t rest', (bytes, value) :: items = done ++ todo ∧
          takeAll take (fuel + 1) s = (done.map Prod.snd, t) ∧ Stream Item middle todo last ∧
          Holds t middle rest' ∧ rest' ++ later = bytesOf todo ∧ (rest' = bytesOf todo → todo = []) := by
      rintro rest rfl isItems
      obtain ⟨t, taken, holds'⟩ := reader.complete item holds
      have shorter : rest.length < fuel := by
        have := length_pos_of_ne_nil (reader.nonempty item)
        rw [length_append] at enough
        omega
      obtain ⟨done, todo, middle, t', rest', rfl, taken', stream', holds'', whole', drained⟩ :=
        ih holds' isItems shorter
      refine ⟨(bytes, value) :: done, todo, middle, t', rest', rfl, ?_, stream', holds'', whole', drained⟩
      simp [takeAll, taken, taken']
    -- either the first item is there, or only a beginning of it
    obtain ⟨rest, isUnread, isItems⟩ | ⟨missing, isBytes, isLater⟩ := append_eq_append_iff.mp cut.symm
    · exact whenThere rest isUnread isItems.symm
    · by_cases present : missing = []
      · apply whenThere []
        · rw [isBytes, present, append_nil, append_nil]
        · rw [isLater, present, nil_append, nil_append]
      · obtain ⟨t, nothing, holds'⟩ := reader.waits item isBytes present holds
        refine ⟨[], (bytes, value) :: items, mode, t, unread, rfl, ?_, .cons item stream, holds', whole, ?_⟩
        · simp [takeAll, nothing]
        · intro isAll
          have none : later = [] := by
            have := congrArg List.length (whole.trans isAll.symm)
            rw [length_append] at this
            exact eq_nil_of_length_eq_zero (by omega)
          rw [none] at isLater
          exact absurd (append_eq_nil_iff.mp isLater.symm).1 present

/-- However a stream is cut, its reader takes its values, in order, and reads all of it. -/
theorem Reader.feed_eq (reader : Reader Item take Holds) (add : σ → List β → List Value × σ)
    (adds : ∀ {s mode unread} (chunk : List β), Holds s mode unread → ∃ t fuel, Holds t mode (unread ++ chunk) ∧ (unread ++ chunk).length < fuel ∧ (add s chunk).1 = (takeAll take fuel t).1 ∧ ∀ next rest, Holds (takeAll take fuel t).2 next rest → Holds (add s chunk).2 next rest)
    (stream : Stream Item mode items last) (chunks : List (List β)) {s : σ} {unread : List β}
    (holds : Holds s mode unread) (whole : unread ++ chunks.flatten = bytesOf items)
    (drained : unread = bytesOf items → items = []) :
    (feed add s chunks).1 = items.map Prod.snd ∧ Holds (feed add s chunks).2 last [] := by
  induction chunks generalizing mode items s unread with
  | nil =>
    rw [flatten_nil, append_nil] at whole
    obtain rfl := drained whole
    cases stream
    obtain rfl : unread = [] := whole
    exact ⟨rfl, holds⟩
  | cons chunk chunks ih =>
    obtain ⟨t, fuel, holdsAll, enough, values, keeps⟩ := adds chunk holds
    have whole' : (unread ++ chunk) ++ chunks.flatten = bytesOf items := by
      rw [append_assoc]
      exact whole
    obtain ⟨done, todo, middle, t', rest, rfl, taken, stream', holds', rest', drained'⟩ :=
      reader.takeAll_eq stream holdsAll whole' enough
    rw [taken] at values keeps
    obtain ⟨values', holdsEnd⟩ := ih stream' (keeps middle rest holds') rest' drained'
    constructor
    · rw [feed, values, values', map_append]
    · exact holdsEnd

end

end Alera.Theory
