/-
# Alera.Diagnostics.BearerRedaction -- bearer tokens in redacted lines

A line `p ++ b ++ w ++ t ++ s` carries the token `t` behind the word `bearer`.
The passes run one after another, so the proof follows the line through them:

* the literals leave `w`, then `t` or a beginning of it that a placeholder cuts
  off (`Masked`);
* the keyed pass reads `p` and `b` as it would without the rest of the line and
  leaves token characters behind `w`, or a placeholder (`keyed_tail`);
* the bearer pass reads those token characters.

What else the output holds was in the line or is spelled by the passes, and
`Clean` says that neither is the token.

The word must still be there when the bearer pass runs, which is `Reached`: after
`Authorization:` the keyed pass takes it for the value.
-/
import Alera.Diagnostics.Redaction

namespace Alera.Diagnostics

open Theory List Regex

set_option autoImplicit false

variable {e : Engine} {t : Text}

/-! ## Traces of a token -/

/-- `t`, or a text the pattern passes can turn into `t`. -/
inductive Trace (e : Engine) (t : Text) : Text → Prop where
  | whole : Trace e t t
  | unkeyed {y : Text} (turns : Unkeyed e y t) : Trace e t y
  | recased {y : Text} (turns : Recased e y t) : Trace e t y

/-- No trace of `t` occurs in `x`. -/
def Clean (e : Engine) (t x : Text) : Prop := ∀ y, Trace e t y → ¬ y <:+: x

/-- What the keyed pass keeps of it. -/
def Unrecased (e : Engine) (t x : Text) : Prop := ¬ t <:+: x ∧ ∀ y, Recased e y t → ¬ y <:+: x

theorem asciiToken_of_recased {v v' : Text} (capital : v <+: codes "Bearer")
    (same : v'.map asciiLower = v.map asciiLower) : ∀ a ∈ v', asciiToken a = true ∧ a ≠ 61 := by
  intro a member
  have lower : asciiLower a ∈ v.map asciiLower := same ▸ mem_map_of_mem member
  obtain ⟨c, listed, eq⟩ := mem_map.mp lower
  have letters : ∀ c ∈ codes "Bearer", 97 ≤ asciiLower c ∧ asciiLower c ≤ 122 := by decide
  have bounds := letters c (capital.subset listed)
  rw [eq] at bounds
  unfold asciiLower at bounds
  simp only [asciiToken, decide_eq_true_eq]
  split_ifs at bounds <;> omega

variable {y : Text}

theorem Recased.length_eq (turns : Recased e y t) : y.length = t.length := by
  obtain ⟨u, v, v', _, _, _, same, rfl, rfl⟩ := turns
  have lengths := congrArg List.length same
  rw [length_map, length_map] at lengths
  rw [length_append, length_append, lengths]

theorem Trace.token (token : ∀ a ∈ t, asciiToken a = true) (trace : Trace e t y) :
    ∀ a ∈ y, asciiToken a = true := by
  rcases trace with _ | ⟨rfl, _⟩ | ⟨u, v, v', _, _, capital, same, rfl, rfl⟩
  · exact token
  · exact fun a member => token a (mem_append_left _ member)
  · intro a member
    rcases mem_append.mp member with first | last
    · exact token a (mem_append_left _ first)
    · exact (asciiToken_of_recased capital same a last).1

theorem Trace.length_le (trace : Trace e t y) : t.length ≤ y.length + 1 := by
  rcases trace with _ | ⟨rfl, _⟩ | turns
  · exact Nat.le_succ _
  · rw [length_append]
    exact Nat.le_refl _
  · rw [turns.length_eq]
    exact Nat.le_succ _

theorem Trace.foreign (token : ∀ a ∈ t, asciiToken a = true) (apart : Clean e t redacted)
    (trace : Trace e t y) : Foreign y :=
  ⟨trace.token token, apart y trace⟩

/-- The keyed pass writes nothing that ends like the word. -/
theorem Recased.not_unkeyed {y' : Text} (turns : Recased e y t) : ¬ Unkeyed e y' y := by
  rintro ⟨ends, _⟩
  obtain ⟨u, v, v', _, nonempty, capital, same, rfl, _⟩ := turns
  rcases eq_nil_or_concat v' with rfl | ⟨v', a, rfl⟩
  · exact nonempty (map_eq_nil_iff.mp same.symm)
  · rw [concat_eq_append, ← append_assoc] at ends
    have equals := (append_inj' ends rfl).2
    have letter := (asciiToken_of_recased capital same a (by simp)).2
    exact letter (List.cons.inj equals).1

namespace Clean

variable {x y o after : Text} {prev : Option Nat}

theorem of_infix {x' : Text} (clean : Clean e t x) (part : x' <:+: x) : Clean e t x' :=
  fun y trace within => clean y trace (within.trans part)

theorem literal (clean : Clean e t (x ++ after)) (foreign : ∀ {y}, Trace e t y → Foreign y)
    {secret : Text}
    (scans : Scans e.isWord (spell (fun c a => a == c) secret) (fun _ => redacted) y prev x o) :
    Clean e t (o ++ after) := by
  intro y' trace within
  rcases scans.within_input (literal_faithful (foreign trace) secret) after within with
    copied | ⟨_, turns, _⟩
  · exact clean y' trace copied
  · exact turns

theorem keyed (clean : Clean e t (x ++ after)) (foreign : ∀ {y}, Trace e t y → Foreign y)
    (scans : Scans e.isWord (keyedSecretPattern e) writeKeyed y prev x o) :
    Unrecased e t (o ++ after) := by
  constructor
  · intro within
    rcases scans.within_input (keyed_faithful (foreign .whole)) after within with
      copied | ⟨y', turns, read⟩
    · exact clean t .whole copied
    · exact clean y' (.unkeyed turns) read
  · intro y' recased within
    have trace : Trace e t y' := .recased recased
    rcases scans.within_input (keyed_faithful (foreign trace)) after within with
      copied | ⟨_, turns, _⟩
    · exact clean y' trace copied
    · exact recased.not_unkeyed turns

/-- What a match that starts in `v` leaves is clean if what follows `v` is: the traces
are too long for the rest of `v`. -/
theorem behind {v s taken : Text} (clean : Clean e t s) (foreign : ∀ {y}, Trace e t y → Foreign y)
    (stop : ∀ a, s.head? = some a → asciiToken a = false) (short : v.length ≤ t.length)
    (two : 2 ≤ taken.length) (read : v ++ s = taken ++ x) : Clean e t x := by
  rcases append_eq_append_iff.mp read with ⟨m, _, rfl⟩ | ⟨m, rfl, rfl⟩
  · exact clean.of_infix (suffix_append _ _).isInfix
  · intro y trace within
    have long := trace.length_le
    rw [length_append] at short
    have apart : ¬ y <:+: m := fun inside => absurd inside.length_le (by omega)
    cases s with
    | nil => exact apart (by rwa [append_nil] at within)
    | cons c s =>
      have outside : c ∉ y := fun member => by
        have inside := (foreign trace).token c member
        rw [stop c rfl] at inside
        cases inside
      rcases infix_of_separator outside within with first | later
      · exact apart first
      · exact clean y trace (later.trans (suffix_cons c s).isInfix)

end Clean

variable {x o : Text} {prev : Option Nat}

theorem Unrecased.bearer {after : Text} (clean : Unrecased e t (x ++ after)) (foreign : Foreign t)
    (long : 8 ≤ t.length) (scans : Scans e.isWord (bearerPattern e) writeBearer y prev x o) :
    ¬ t <:+: o ++ after := by
  intro within
  rcases scans.within_input (bearer_faithful foreign long) after within with
    copied | ⟨y', turns, read⟩
  · exact clean.1 copied
  · exact clean.2 y' turns read

/-! ## The registered literals -/

theorem literal_ends : EndsWith (fun _ => redacted) 93 := fun _ => ⟨codes "[redacted", rfl⟩

variable {secret : Text}

theorem literal_found {taken rest group : Text} {last : Option Nat}
    (found : matchAt e.isWord (spell (fun c a => a == c) secret) prev (taken ++ rest) = some ⟨last, rest, group⟩) :
    taken = secret := by
  obtain ⟨text, spells, read⟩ := mem_run_spell (mem_of_matchAt found)
  have exact' : secret = text := by
    rw [← forall₂_eq_eq_eq]
    exact spells.imp fun c a same => (beq_iff_eq.mp same).symm
  rw [exact']
  exact append_cancel_right read

/-- A literal pass changes nothing or scans the text. -/
theorem maskSecret_cases (text secret : Text) :
    maskSecret e text secret = text ∨
      Scans e.isWord (spell (fun c a => a == c) secret) (fun _ => redacted) [] none text
        (maskSecret e text secret) := by
  unfold maskSecret
  split
  · exact .inr (replaceAll_scans text)
  · exact .inl rfl

/-- What every literal pass preserves. -/
theorem maskSecrets_invariant {P : Text → Prop} {secrets : List Text} (holds : P x)
    (scan : ∀ {x o secret}, Scans e.isWord (spell (fun c a => a == c) secret) (fun _ => redacted) [] none x o →
      P x → P o) : P (maskSecrets e secrets x) := by
  induction secrets generalizing x with
  | nil => exact holds
  | cons secret secrets ih =>
    refine ih ?_
    rcases maskSecret_cases (e := e) x secret with same | scans
    · rwa [same]
    · exact scan scans holds

theorem lastOr_none (x : Text) : lastOr none x = x.getLast? := Option.or_none

variable {r : Regex Nat} {write : Text → Text}

/-- A pass that ends its replacements with the bracket keeps a boundary at the end. -/
theorem AtBoundary.scan (boundary : AtBoundary e x) (marks : EndsWith write 93)
    (scans : Scans e.isWord r write y prev x o) : AtBoundary e o := by
  have last := scans.last (P := fun last => last.any e.isWord = false) marks rfl none
  rw [lastOr_none, lastOr_none] at last
  exact last boundary

/-- `f ++ s` is the token or a beginning of it, which ends where `s` starts. -/
structure Cut (e : Engine) (t f s : Text) : Prop where
  begins : f <+: t
  clean : Clean e t s
  stop : ∀ a, s.head? = some a → asciiToken a = false

def Masked (e : Engine) (t z : Text) : Prop := ∃ f s, z = f ++ s ∧ Cut e t f s

theorem literal_stop {s : Text}
    (scans : Scans e.isWord (spell (fun c a => a == c) secret) (fun _ => redacted) [] prev s o)
    (stop : ∀ a, s.head? = some a → asciiToken a = false) :
    ∀ a, o.head? = some a → asciiToken a = false := by
  cases s with
  | nil => rwa [scans.nil_eq]
  | cons c s =>
    rcases scans.cons_cases with ⟨_, o', rfl, _⟩ | ⟨_, _, _, o', _, _, _, rfl, _⟩
    · exact stop
    · rintro a ⟨⟩
      rfl

/-- Behind the placeholder nothing new begins. -/
theorem Foreign.behind_placeholder (foreign : Foreign y) (outside : ¬ y <:+: o) :
    ¬ y <:+: redacted ++ o := by
  intro within
  rcases foreign.of_placeholder (show y <:+: [] ++ (redacted ++ o) from within) with empty | later
  · exact outside (empty.trans nil_infix)
  · exact outside later

variable {z : Text}

theorem Masked.literal (masked : Masked e t z) (foreign : ∀ {y}, Trace e t y → Foreign y)
    (long : 2 ≤ secret.length)
    (scans : Scans e.isWord (spell (fun c a => a == c) secret) (fun _ => redacted) [] prev z o) :
    Masked e t o := by
  obtain ⟨f, s, rfl, cut⟩ := masked
  rcases scans.first_hit with
    ⟨o', rfl, later⟩ | ⟨u, v, taken, rest, group, o', rfl, _, read, found, rfl, later⟩
  · have clean : Clean e t (o' ++ []) :=
      Clean.literal (by rw [append_nil]; exact cut.clean) foreign later
    rw [append_nil] at clean
    exact ⟨f, o', rfl, cut.begins, clean, literal_stop later cut.stop⟩
  · have behind : Clean e t rest := by
      refine cut.clean.behind foreign cut.stop ?_ ((literal_found found).symm ▸ long) read
      have bound := cut.begins.length_le
      rw [length_append] at bound
      omega
    have clean : Clean e t (o' ++ []) :=
      Clean.literal (by rw [append_nil]; exact behind) foreign later
    rw [append_nil] at clean
    refine ⟨u, redacted ++ o', rfl, (prefix_append _ _).trans cut.begins,
      fun y trace => (foreign trace).behind_placeholder (clean y trace), ?_⟩
    rintro a ⟨⟩
    rfl

variable {w : Text}

/-- The literals leave the white space and mask what follows it. -/
theorem maskSecrets_masked {secrets : List Text} (spaces : ∀ a ∈ w, e.isSpace a = true)
    (long : ∀ secret ∈ secrets, 2 ≤ secret.length)
    (trimmed : ∀ secret ∈ secrets, ∀ a, secret.head? = some a → e.isSpace a = false)
    (foreign : ∀ {y}, Trace e t y → Foreign y) (masked : Masked e t z) :
    ∃ z', maskSecrets e secrets (w ++ z) = w ++ z' ∧ Masked e t z' := by
  induction secrets generalizing z with
  | nil => exact ⟨z, rfl, masked⟩
  | cons secret secrets ih =>
    have one : ∃ z', maskSecret e (w ++ z) secret = w ++ z' ∧ Masked e t z' := by
      rcases maskSecret_cases (e := e) (w ++ z) secret with same | scans
      · exact ⟨z, same, masked⟩
      rcases scans.first_hit with
        ⟨o', same, later⟩ | ⟨u, v, taken, rest, group, o', split, nonempty, read, found, _, _⟩
      · exact ⟨o', same, masked.literal foreign (long secret (.head _)) later⟩
      · -- A literal does not start with white space.
        obtain ⟨a, v, rfl⟩ := exists_cons_of_ne_nil nonempty
        have enough := long secret (.head _)
        rw [literal_found found] at read
        cases secret with
        | nil => exact absurd enough (by decide)
        | cons c secret =>
          obtain ⟨rfl, _⟩ := List.cons.inj read
          have space := spaces a (by rw [split]; simp)
          rw [trimmed _ (.head _) a rfl] at space
          cases space
    obtain ⟨z', same, masked'⟩ := one
    obtain ⟨z'', rest, masked''⟩ := ih (fun other member => long other (.tail _ member))
      (fun other member => trimmed other (.tail _ member)) masked'
    exact ⟨z'', by rw [← rest, ← same]; rfl, masked''⟩

/-! ## The pattern passes -/

theorem keyed_ends : EndsWith writeKeyed 93 :=
  fun group => ⟨group ++ codes "=[redacted", by simp [writeKeyed, redacted, codes]⟩

theorem bearer_ends : EndsWith writeBearer 93 := fun _ => ⟨codes "Bearer [redacted", rfl⟩

/-- Text that goes on with white space. -/
def Spaced (e : Engine) (z : Text) : Prop := ∃ a rest, z = a :: rest ∧ e.isSpace a = true

section Unread

variable {b z : Text} {prev : Option Nat}

/-- A repetition at the end of a pattern stops in front of white space. -/
theorem carries_plus {p : Nat → Bool} (spaced : Spaced e z)
    (stops : ∀ a, e.isSpace a = true → p a = false) :
    Carries e.isWord (Aligned b (b ++ z)) (Aligned [] z) (plus p) := by
  obtain ⟨a, rest, rfl, space⟩ := spaced
  intro c d aligned
  refine carries_aligned ?_ ?_ ?_ (aligned.inner (append_nil b).symm rfl)
  · intro a' next
    cases next
  · intro a' next
    cases next
    exact ⟨stops a space, stops a space⟩
  · simp [(Engine.of_isSpace space).1]

/-- The keyed pass reads the text up to `bearer` whatever follows the word: no part of
the pattern in front of the value takes a `b`, and the value stops at white space. -/
theorem keyed_unread (bearer : IsBearer b) (spaced : Spaced e z) (v : Text) :
    matchAt e.isWord (keyedSecretPattern e) prev (v ++ b ++ z) =
      (matchAt e.isWord (keyedSecretPattern e) prev (v ++ b)).map (lengthen z) := by
  have last := carries_plus (b := b) spaced fun a space => (Engine.of_isSpace space).2.2
  obtain ⟨β, b, rfl, ascii, lower⟩ := bearer.head
  have before : ∀ {r : Regex Nat}, r.Avoids β →
      Carries e.isWord (Aligned (β :: b) (β :: b ++ z)) (Aligned (β :: b) (β :: b ++ z)) r :=
    fun avoids => carries_before avoids b z
  have letter : ∀ c, e.letter c β = (98 == c) := fun c => by
    rw [Engine.letter_of_ascii ascii, lower]
  have named : ∀ literal : String, 98 ∉ codes literal → (word e literal).Avoids β := by
    intro literal apart
    refine avoids_spell fun c member => ?_
    rw [letter, beq_eq_false_iff_ne]
    rintro rfl
    exact apart member
  have plain : β = 66 ∨ β = 98 := by
    unfold asciiLower at lower
    split_ifs at lower <;> omega
  have space : e.isSpace β = false :=
    Engine.isSpace_of_isWord (bearer.isWord β (.head _))
  have quote : (β == 34) = false := by rcases plain with rfl | rfl <;> rfl
  have separator : (β == 58 || β == 61) = false := by rcases plain with rfl | rfl <;> rfl
  have joint : (β == 95 || β == 45) = false := by rcases plain with rfl | rfl <;> rfl
  have key : (keyNamePattern e).Avoids β :=
    ⟨named "token" (by decide), named "secret" (by decide), named "password" (by decide),
      named "passwd" (by decide), ⟨named "api" (by decide), joint, named "key" (by decide)⟩,
      named "authorization" (by decide), named "devicetoken" (by decide)⟩
  have carries : Carries e.isWord (Aligned (β :: b) (β :: b ++ z)) (Aligned [] z)
      (keyedSecretPattern e) :=
    Carries.seq (before trivial) <| Carries.seq (before key) <| Carries.seq (before trivial) <|
      Carries.seq (before quote) <| Carries.seq (before space) <| Carries.seq (before separator) <|
        Carries.seq (before space) <| Carries.seq (before quote) last
  refine matchAt_extend carries ?_
  rw [append_assoc]
  exact .mk prev v []

/-- So does the bearer pass, behind a character that is not a word character. -/
theorem bearer_unread (bearer : IsBearer b) (spaced : Spaced e z) {δ : Nat}
    (boundary : e.isWord δ = false) (v : Text) :
    matchAt e.isWord (bearerPattern e) prev (v ++ [δ] ++ b ++ z) =
      (matchAt e.isWord (bearerPattern e) prev (v ++ [δ] ++ b)).map (lengthen z) := by
  have last := carries_plus (b := b) spaced fun a space => (Engine.of_isSpace space).2.1
  obtain ⟨β, b, rfl, _⟩ := bearer.head
  have space : e.isSpace β = false :=
    Engine.isSpace_of_isWord (bearer.isWord β (.head _))
  have header : (word e "bearer").Avoids δ := by
    refine avoids_spell fun c member => Bool.eq_false_iff.mpr fun same => ?_
    have lower : ∀ c ∈ codes "bearer", 97 ≤ c ∧ c ≤ 122 := by decide
    rw [Engine.isWord_of_letter (lower c member) same] at boundary
    cases boundary
  have behind : Carries e.isWord (Aligned (β :: b) (β :: b ++ z)) (Aligned [] z)
      (.seq (.one e.isSpace) (.seq (.many e.isSpace) (plus e.isToken))) :=
    Carries.seq (carries_before (r := .one e.isSpace) space b z) <|
      Carries.seq (carries_before (r := .many e.isSpace) space b z) last
  have carries : Carries e.isWord (Aligned (δ :: β :: b) (δ :: β :: b ++ z)) (Aligned [] z)
      (bearerPattern e) :=
    Carries.seq (carries_before (r := .boundary) trivial _ _) <| Carries.seq (carries_before header _ _)
      fun _ _ aligned => behind (aligned.inner (x := [δ]) rfl rfl)
  refine matchAt_extend carries ?_
  simp only [append_assoc, singleton_append]
  exact .mk prev v []

end Unread

/-! ### The keyed pass behind the word -/

theorem scans_spaces
    (none_of_space : ∀ {a : Nat}, e.isSpace a = true → ∀ prev rest, matchAt e.isWord r prev (a :: rest) = none)
    (spaces : ∀ a ∈ w, e.isSpace a = true) (prev : Option Nat) (y : Text) :
    Scans e.isWord r write y prev w w := by
  refine .copies fun u a v split => none_of_space (spaces a ?_) _ _
  rw [split]
  simp

variable {b : Text}

/-- Patterns that start at a word boundary match nowhere in a word but at its start. -/
theorem scans_bearer (bearer : IsBearer b)
    (bounded : ∀ {prev input d}, matchAt e.isWord r prev input = some d → prev.any e.isWord = false)
    (first : matchAt e.isWord r prev (b ++ y) = none) : Scans e.isWord r write y prev b b := by
  refine .copies fun u a v split => ?_
  rcases eq_nil_or_concat u with rfl | ⟨u, c, rfl⟩
  · rw [split] at first
    exact first
  · refine Option.eq_none_iff_forall_ne_some.mpr fun d found => ?_
    have start := bounded found
    rw [concat_eq_append, lastOr_append] at start
    have word := bearer.isWord (e := e) c (by rw [split]; simp)
    rw [show lastOr (lastOr prev u) [c] = some c from rfl, Option.any_some, word] at start
    cases start

/-- Behind the white space the keyed pass leaves token characters and then no trace of
the token. -/
theorem keyed_tail (masked : Masked e t z) (foreign : ∀ {y}, Trace e t y → Foreign y)
    (scans : Scans e.isWord (keyedSecretPattern e) writeKeyed [] prev z o) :
    ∃ tokens rest, o = tokens ++ rest ∧ (∀ a ∈ tokens, e.isToken a = true) ∧
      Unrecased e t rest := by
  obtain ⟨f, s, rfl, cut⟩ := masked
  have tokens : ∀ a ∈ f, e.isToken a = true := fun a member =>
    Engine.isToken_of_ascii ((foreign .whole).token a (cut.begins.subset member))
  rcases scans.first_hit with
    ⟨o', rfl, later⟩ | ⟨u, v, taken, rest, key, o', rfl, _, read, found, rfl, later⟩
  · have clean : Unrecased e t (o' ++ []) :=
      Clean.keyed (by rw [append_nil]; exact cut.clean) foreign later
    rw [append_nil] at clean
    exact ⟨f, o', rfl, tokens, clean⟩
  · obtain ⟨named, _, more, enough, input⟩ := keyed_found found
    have taken_eq : taken = key ++ more := append_cancel_right input
    have behind : Clean e t rest := by
      refine cut.clean.behind foreign cut.stop ?_ ?_ read
      · have bound := cut.begins.length_le
        rw [length_append] at bound
        omega
      · rw [taken_eq, length_append]
        omega
    have clean : Unrecased e t (o' ++ []) :=
      Clean.keyed (by rw [append_nil]; exact behind) foreign later
    rw [append_nil] at clean
    refine ⟨u ++ (key ++ codes "="), redacted ++ o', by simp [writeKeyed], ?_,
      (foreign .whole).behind_placeholder clean.1,
      fun y turns => (foreign (.recased turns)).behind_placeholder (clean.2 y turns)⟩
    intro a member
    rcases mem_append.mp member with first | member
    · exact tokens a (mem_append_left _ first)
    rcases mem_append.mp member with second | last
    · exact named.isToken a second
    · rw [mem_singleton.mp last]
      rfl

/-! ### The bearer pass -/

section Header

variable {b w q o : Text}

theorem spaced_append (gap : w ≠ []) (spaces : ∀ a ∈ w, e.isSpace a = true) (z : Text) :
    Spaced e (w ++ z) := by
  obtain ⟨a, w, rfl⟩ := exists_cons_of_ne_nil gap
  exact ⟨a, w ++ z, rfl, spaces a (.head _)⟩

/-- In front of the word the bearer pass does not see what follows it. -/
theorem bearer_before (bearer : IsBearer b) (boundary : AtBoundary e q) {z : Text}
    (spaced : Spaced e z)
    (before : Scans e.isWord (bearerPattern e) writeBearer b none q o) :
    Scans e.isWord (bearerPattern e) writeBearer (b ++ z) none q o := by
  refine before.extend fun u v split nonempty => ?_
  rcases eq_nil_or_concat v with rfl | ⟨v, δ, rfl⟩
  · exact absurd rfl nonempty
  · have last : e.isWord δ = false := by
      rw [AtBoundary, split, concat_eq_append, ← append_assoc, getLast?_concat] at boundary
      exact boundary
    rw [concat_eq_append]
    exact bearer_unread bearer spaced last v

/-- The bearer pass rewrites the word and the token characters behind it. -/
theorem header_scan (bearer : IsBearer b) (boundary : AtBoundary e q) (gap : w ≠ [])
    (spaces : ∀ a ∈ w, e.isSpace a = true)
    (before : Scans e.isWord (bearerPattern e) writeBearer b none q o)
    {tokens : Text} (some' : tokens ≠ []) (token : ∀ a ∈ tokens, e.isToken a = true) (rest : Text) :
    ∃ last, ∀ {o'}, Scans e.isWord (bearerPattern e) writeBearer [] last (rest.dropWhile e.isToken) o' →
      Scans e.isWord (bearerPattern e) writeBearer [] none (q ++ (b ++ (w ++ (tokens ++ rest))))
        (o ++ (writeBearer [] ++ o')) := by
  obtain ⟨a, tokens, rfl⟩ := exists_cons_of_ne_nil some'
  let taken := b ++ (w ++ (a :: tokens ++ rest.takeWhile e.isToken))
  have start : (lastOr none q).any e.isWord = false := by rwa [lastOr_none]
  have stop : ∀ c, (a :: tokens ++ rest).head? = some c → e.isSpace c = false := by
    rintro _ ⟨⟩
    exact Engine.isSpace_of_isToken (token a (.head _))
  have whole : b ++ (w ++ (a :: tokens ++ rest)) = taken ++ rest.dropWhile e.isToken := by
    simp [taken]
  have nonempty : taken ≠ [] := by simp [taken]
  have found : matchAt e.isWord (bearerPattern e) (lastOr none q)
      (taken ++ (rest.dropWhile e.isToken ++ [])) =
        some ⟨lastOr (lastOr none q) taken, rest.dropWhile e.isToken ++ [], []⟩ := by
    have shorter := length_pos_iff.mpr nonempty
    rw [append_nil, matchAt, ← whole, run_bearer bearer start gap spaces stop, cons_append,
      run_plus_head (token a (.head _)), ← cons_append, whole]
    rw [skip]
    rw [takeWhile_append_of_pos token, dropWhile_append_of_pos token, Option.filter_some,
      if_pos (by simpa using shorter), ← lastOr_append, append_assoc]
  refine ⟨lastOr (lastOr none q) taken, fun {o'} later => ?_⟩
  refine Scans.append_last (bearer_before bearer boundary (spaced_append gap spaces _) before) ?_
  rw [whole]
  exact .hit nonempty found later

/-- White space keeps traces apart. -/
theorem Unrecased.append_gap {x rest : Text} (clean : Unrecased e t x) (gap : w ≠ [])
    (spaces : ∀ a ∈ w, e.isSpace a = true) (foreign : ∀ {y}, Trace e t y → Foreign y)
    (cleanR : Unrecased e t rest) : Unrecased e t (x ++ (w ++ rest)) := by
  have parted : ∀ y, Trace e t y → ¬ y <:+: x → ¬ y <:+: rest → ¬ y <:+: x ++ (w ++ rest) := by
    intro y trace left right within
    refine (infix_of_gap gap (fun a member inside => ?_) within).elim left right
    have outside := Engine.isSpace_of_isToken (e := e)
      (Engine.isToken_of_ascii ((foreign trace).token a inside))
    rw [spaces a member] at outside
    cases outside
  exact ⟨parted t .whole clean.1 cleanR.1, fun y turns =>
    parted y (.recased turns) (clean.2 y turns) (cleanR.2 y turns)⟩

/-- The token characters behind the word are gone, and what the pass writes for them does
not spell the token either. -/
theorem header_hidden (bearer : IsBearer b) (boundary : AtBoundary e q) (gap : w ≠ [])
    (spaces : ∀ a ∈ w, e.isSpace a = true)
    (before : Scans e.isWord (bearerPattern e) writeBearer b none q o)
    {tokens rest : Text} (some' : tokens ≠ []) (token' : ∀ a ∈ tokens, e.isToken a = true)
    (foreign : ∀ {y}, Trace e t y → Foreign y) (long : 8 ≤ t.length) (clean : Unrecased e t (q ++ b))
    (cleanR : Unrecased e t rest) :
    ¬ t <:+: bearerPass e (q ++ (b ++ (w ++ (tokens ++ rest)))) := by
  -- A header with a token of one letter has the same output up to the placeholder.
  have lead : ¬ t <:+: o ++ writeBearer [] := by
    have short : Unrecased e t (codes "x") :=
      ⟨fun within => absurd (long.trans within.length_le) (by decide), fun y turns within =>
        absurd (long.trans (turns.length_eq ▸ within.length_le)) (by decide)⟩
    have line : Unrecased e t (q ++ (b ++ (w ++ codes "x")) ++ []) := by
      rw [append_nil, ← append_assoc]
      exact clean.append_gap gap spaces foreign short
    obtain ⟨last, scan⟩ := header_scan bearer boundary gap spaces before
      (show codes "x" ≠ [] by decide) (fun a member => by rw [mem_singleton.mp member]; rfl) []
    have absent := line.bearer (foreign .whole) long (scan (.done last))
    rwa [append_nil] at absent
  obtain ⟨last, scan⟩ := header_scan bearer boundary gap spaces before some' token' rest
  obtain ⟨o', later⟩ := exists_scans e.isWord (bearerPattern e) writeBearer last
    (rest.dropWhile e.isToken)
  rw [show bearerPass e (q ++ (b ++ (w ++ (tokens ++ rest)))) = _ from replaceAll_eq (scan later)]
  have behind : Unrecased e t (rest.dropWhile e.isToken ++ []) := by
    have part := (dropWhile_suffix e.isToken (l := rest)).isInfix
    rw [append_nil]
    exact ⟨fun within => cleanR.1 (within.trans part), fun y turns within =>
      cleanR.2 y turns (within.trans part)⟩
  intro within
  have opened : o ++ (writeBearer [] ++ o') = o ++ codes "Bearer " ++ (redacted ++ o') := by
    simp [writeBearer]
  rw [opened] at within
  rcases (foreign .whole).of_placeholder within with first | second
  · refine lead (first.trans ⟨[], redacted, ?_⟩)
    simp [writeBearer]
  · exact behind.bearer (foreign .whole) long later (by rwa [append_nil])

end Header

/-- **The pattern passes on a header** whose word they reach: of the token, cut or not,
nothing is left. -/
theorem redactPatterns_header {p : Text} (boundary : AtBoundary e p) (bearer : IsBearer b)
    (gap : w ≠ []) (spaces : ∀ a ∈ w, e.isSpace a = true) (long : 8 ≤ t.length)
    (foreign : ∀ {y}, Trace e t y → Foreign y) (clean : Clean e t (p ++ b))
    (masked : Masked e t z) (reached : b <:+ redactPatterns e (p ++ b)) :
    ¬ t <:+: redactPatterns e (p ++ (b ++ (w ++ z))) := by
  have unmarked : 93 ∉ b := fun member => Bool.noConfusion (bearer.isWord (e := e) 93 member)
  -- Both passes copy the word at the end of `p ++ b`; `q` and `o` are what they make of `p`.
  obtain ⟨o, out⟩ := reached
  obtain ⟨q, split, beforeB, _⟩ := (show Scans e.isWord (bearerPattern e) writeBearer [] none
    (keyedPass e (p ++ b)) (o ++ b) from out ▸ replaceAll_scans _).split_suffix bearer_ends unmarked
  obtain ⟨p', same, beforeK, _⟩ := (show Scans e.isWord (keyedSecretPattern e) writeKeyed [] none
    (p ++ b) (q ++ b) from split ▸ replaceAll_scans _).split_suffix keyed_ends unmarked
  obtain rfl : p = p' := append_cancel_right same
  have boundaryQ : AtBoundary e q := boundary.scan keyed_ends beforeK
  have cleanQ : Unrecased e t (q ++ b) := clean.keyed foreign beforeK
  -- The keyed pass over the whole line.
  obtain ⟨o', later⟩ := exists_scans e.isWord (keyedSecretPattern e) writeKeyed
    (lastOr (lastOr (lastOr none p) b) w) z
  obtain ⟨tokens, rest, rfl, token', cleanR⟩ := keyed_tail masked foreign later
  have first : matchAt e.isWord (keyedSecretPattern e) (lastOr none p) (b ++ (w ++ z)) = none := by
    obtain ⟨β, b, rfl, ascii, lower⟩ := bearer.head
    exact keyed_none_of_ascii ascii (by rw [lower]; decide) _ _
  have keyed : keyedPass e (p ++ (b ++ (w ++ z))) = q ++ (b ++ (w ++ (tokens ++ rest))) :=
    replaceAll_eq <| Scans.append_last
      (beforeK.extend fun u v _ _ => keyed_unread bearer (spaced_append gap spaces z) v) <|
      Scans.append_last (scans_bearer bearer (fun found => (keyed_found found).2.1) first) <|
      Scans.append_last (scans_spaces keyed_none_of_space spaces _ _) later
  rw [redactPatterns, keyed]
  by_cases empty : tokens = []
  · -- A literal took the whole token: the word stays, and nothing in the line is a trace.
    have line : Unrecased e t (q ++ (b ++ (w ++ rest)) ++ []) := by
      rw [append_nil, ← append_assoc]
      exact cleanQ.append_gap gap spaces foreign cleanR
    rw [empty]
    intro within
    exact line.bearer (foreign .whole) long (replaceAll_scans _) (by rwa [append_nil])
  · exact header_hidden bearer boundaryQ gap spaces beforeB empty token' foreign long cleanQ cleanR

/-! ## Lines with a bearer token -/

/-- A line `p ++ b ++ w ++ t ++ s` with the token `t` behind the word `b` and nowhere else. -/
structure BearerLine (e : Engine) (p b w t s : Text) : Prop where
  boundary : AtBoundary e p
  bearer : IsBearer b
  gap : w ≠ []
  spaces : ∀ a ∈ w, e.isSpace a = true
  long : 8 ≤ t.length
  token : ∀ a ∈ t, asciiToken a = true
  stop : ∀ a, s.head? = some a → asciiToken a = false
  before : ¬ t <:+: p
  behind : ¬ t <:+: s
  placeholder : ¬ t <:+: redacted

/-- The passes cannot spell the token from the rest of the line. -/
structure Unspelled (e : Engine) (p b t s : Text) : Prop where
  before : Clean e t (p ++ b)
  behind : Clean e t s
  placeholder : Clean e t redacted

/-- The word is still there when the bearer pass reaches it: no literal is masked across
its ends, and no match of either pattern in front of it takes it along. -/
structure Reached (e : Engine) (secrets : List Text) (p b rest : Text) : Prop where
  literals : maskSecrets e secrets (p ++ (b ++ rest)) =
    maskSecrets e secrets p ++ (b ++ maskSecrets e secrets rest)
  patterns : b <:+ redactPatterns e (maskSecrets e secrets p ++ b)

/-- Literals and patterns together, for either engine. -/
theorem redacted_of_reached {p s : Text} (registry : SecretRegistry e)
    (line : BearerLine e p b w t s) (unspelled : Unspelled e p b t s)
    (reached : Reached e registry.secrets p b (w ++ (t ++ s))) :
    ¬ t <:+: redactPatterns e (maskSecrets e registry.secrets (p ++ (b ++ (w ++ (t ++ s))))) := by
  have whole : Masked e t (t ++ s) := ⟨t, s, rfl, prefix_refl t, unspelled.behind, line.stop⟩
  have foreign : ∀ {y}, Trace e t y → Foreign y :=
    fun trace => trace.foreign line.token unspelled.placeholder
  obtain ⟨z, masks, masked⟩ := maskSecrets_masked line.spaces registry.long registry.trimmed foreign whole
  rw [reached.literals, masks]
  have boundary : AtBoundary e (maskSecrets e registry.secrets p) :=
    maskSecrets_invariant line.boundary fun scans boundary => boundary.scan literal_ends scans
  have before : Clean e t (maskSecrets e registry.secrets p ++ b) :=
    @maskSecrets_invariant _ _ (fun p => Clean e t (p ++ b)) _ unspelled.before
      fun scans clean => clean.literal foreign scans
  exact redactPatterns_header boundary line.bearer line.gap line.spaces line.long foreign before masked
    reached.patterns

/-- **Bearer tokens do not survive log redaction**: neither `redact` nor `redactLogText`
returns a text with the token, whatever key names, separators and registered literals the
line has, as long as the word is reached and the passes do not spell the token themselves. -/
theorem bearer_token_redacted (p b w t s : Text) :
    (∀ (words : UnicodeWords) (registry : SecretRegistry (rustEngine words)),
      BearerLine (rustEngine words) p b w t s → Unspelled (rustEngine words) p b t s →
      Reached (rustEngine words) registry.secrets p b (w ++ (t ++ s)) →
      ¬ t <:+: redact registry (p ++ (b ++ (w ++ (t ++ s))))) ∧
    (∀ registry : SecretRegistry dartEngine,
      (p ++ (b ++ (w ++ (t ++ s)))).length ≤ maxLogTextLength →
      BearerLine dartEngine p b w t s → Unspelled dartEngine p b t s →
      Reached dartEngine registry.secrets p b (w ++ (t ++ s)) →
      ¬ t <:+: redactLogText registry (p ++ (b ++ (w ++ (t ++ s))))) := by
  refine ⟨fun words registry line unspelled reached =>
    redacted_of_reached registry line unspelled reached, ?_⟩
  intro registry within line unspelled reached
  rw [redactLogText, if_neg (Nat.not_lt.mpr within)]
  exact redacted_of_reached registry line unspelled reached

/-- A token that ends neither with `=` nor with a letter of `Bearer` cannot be spelled. -/
theorem clean_of_last (init : Text) {a : Nat} (apart : a ∉ codes "=Bear")
    (absent : ¬ init ++ [a] <:+: x) : Clean e (init ++ [a]) x := by
  rintro y (_ | ⟨ends, _⟩ | ⟨u, v, v', _, nonempty, capital, _, _, ends⟩)
  · exact absent
  · have equals := (append_inj' ends rfl).2
    exact absurd (by rw [(List.cons.inj equals).1]; decide) apart
  · rcases eq_nil_or_concat v with rfl | ⟨v, c, rfl⟩
    · exact absurd rfl nonempty
    · rw [concat_eq_append, ← append_assoc] at ends
      have last := (List.cons.inj (append_inj' ends rfl).2).1
      have letters : ∀ c ∈ codes "Bearer", c ∈ codes "=Bear" := by decide
      exact absurd (letters a (capital.subset (by simp [last]))) apart

/-- Word characters enough for the two letters that equal ASCII letters. -/
def foldedWords : UnicodeWords where
  word a := a == 0x17F || a == 0x212A
  longS := rfl
  kelvinSign := rfl
  apart a word := by
    simp only [Bool.or_eq_true, beq_iff_eq] at word
    omega

/-- The premises at a line with a keyed value and a registered literal in front of the header. -/
theorem bearer_token_redacted_request :
    ¬ codes "eyJhbGci.xyz" <:+: redact
      (registerSecret (.empty (rustEngine foldedWords)) (codes " control-token-1 "))
      (codes "token: v, control-token-1 BEARER \teyJhbGci.xyz, done") ∧
    ¬ codes "eyJhbGci.xyz" <:+: redactLogText
      (registerLogSecret (.empty dartEngine) (codes " control-token-1 "))
      (codes "token: v, control-token-1 BEARER \teyJhbGci.xyz, done") := by
  have premises := bearer_token_redacted (codes "token: v, control-token-1 ") (codes "BEARER")
    (codes " \t") (codes "eyJhbGci.xyz") (codes ", done")
  have clean : ∀ {e : Engine} {x : Text}, ¬ codes "eyJhbGci.xyz" <:+: x →
      Clean e (codes "eyJhbGci.xyz") x := fun absent =>
    clean_of_last (codes "eyJhbGci.xy") (show 122 ∉ codes "=Bear" by decide) absent
  refine ⟨premises.1 foldedWords _ ?_ ⟨clean (by decide), clean (by decide), clean (by decide)⟩ ?_,
    premises.2 _ (by decide) ?_ ⟨clean (by decide), clean (by decide), clean (by decide)⟩ ?_⟩
  · exact ⟨rfl, rfl, by decide, by decide, by decide, by decide, by rintro a ⟨⟩; rfl, by decide,
      by decide, by decide⟩
  · exact ⟨by decide, by decide⟩
  · exact ⟨rfl, rfl, by decide, by decide, by decide, by decide, by rintro a ⟨⟩; rfl, by decide,
      by decide, by decide⟩
  · exact ⟨by decide, by decide⟩

/-- Two lines whose token survives in either program.  In the first the keyed pass takes the
word for the value of `Authorization` and leaves the token; in the second the rewritten key
spells the token. -/
theorem bearer_token_survives :
    (∀ e ∈ [rustEngine foldedWords, dartEngine],
      BearerLine e (codes "Authorization: ") (codes "Bearer") (codes " ") (codes "abcdefgh") [] ∧
      BearerLine e (codes "ab-token: v ") (codes "Bearer") (codes " ") (codes "b-token=") []) ∧
    (codes "abcdefgh" <:+: redact (.empty (rustEngine foldedWords))
        (codes "Authorization: " ++ (codes "Bearer" ++ (codes " " ++ (codes "abcdefgh" ++ [])))) ∧
      codes "abcdefgh" <:+: redactLogText (.empty dartEngine)
        (codes "Authorization: " ++ (codes "Bearer" ++ (codes " " ++ (codes "abcdefgh" ++ []))))) ∧
    (codes "b-token=" <:+: redact (.empty (rustEngine foldedWords))
        (codes "ab-token: v " ++ (codes "Bearer" ++ (codes " " ++ (codes "b-token=" ++ [])))) ∧
      codes "b-token=" <:+: redactLogText (.empty dartEngine)
        (codes "ab-token: v " ++ (codes "Bearer" ++ (codes " " ++ (codes "b-token=" ++ []))))) := by
  refine ⟨?_, ⟨by decide, by decide⟩, ⟨by decide, by decide⟩⟩
  intro e member
  rcases mem_cons.mp member with rfl | member
  · constructor <;>
      exact ⟨rfl, rfl, by decide, by decide, by decide, by decide, nofun, by decide, by decide, by decide⟩
  · rw [mem_singleton.mp member]
    constructor <;>
      exact ⟨rfl, rfl, by decide, by decide, by decide, by decide, nofun, by decide, by decide, by decide⟩

end Alera.Diagnostics
