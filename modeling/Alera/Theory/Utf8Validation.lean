/-
# Alera.Theory.Utf8Validation -- reading bytes that may not be UTF-8

A scalar is the encoding of one character (`IsScalar`, over the core library's
encoder).  `step` reads one item off the front of a byte string the way
`std::str::from_utf8` does: a scalar, a malformed sequence and how many bytes of it
to skip, or an incomplete one at the end of the input; `fromUtf8` is that
function, with the two fields of its error.

What a reader of a damaged stream needs is that every item is one first byte and
then continuation bytes only, so that reading never steps over the start of a
scalar:

* `step_scalar_iff` and `step_incomplete_iff` say what the two good answers mean;
* `validate_spec` says where in the input an incomplete scalar can begin.
-/
import Alera.Theory.Lists

namespace Alera.Theory.Utf8

open List
open UInt8 (ofNat)

set_option autoImplicit false

/-- The encoding of one character. -/
def IsScalar (bytes : List UInt8) : Prop := ∃ c : Char, bytes = String.utf8EncodeChar c

/-- The beginning of a scalar of which at least one byte is missing. -/
def IsScalarStart (bytes : List UInt8) : Prop :=
  bytes ≠ [] ∧ ∃ rest, rest ≠ [] ∧ IsScalar (bytes ++ rest)

/-- Position `p` of the stream lies inside one of its scalars. -/
def InsideScalar (stream : List UInt8) (p : Nat) : Prop :=
  ∃ first last, first < p ∧ p < last ∧ last ≤ stream.length ∧ IsScalar (slice stream first last)

/-! ## Well-formed byte sequences -/

/-- What a first byte promises: how many bytes follow, and the range of the first of them. -/
structure Lead where
  tails : Nat
  low : Nat
  high : Nat

/-- The table of well-formed byte sequences, by the first byte. -/
def lead? (byte : Nat) : Option Lead :=
  if byte ≤ 0x7F then some ⟨0, 0x80, 0xBF⟩
  else if 0xC2 ≤ byte ∧ byte ≤ 0xDF then some ⟨1, 0x80, 0xBF⟩
  else if byte = 0xE0 then some ⟨2, 0xA0, 0xBF⟩
  else if byte = 0xED then some ⟨2, 0x80, 0x9F⟩
  else if 0xE1 ≤ byte ∧ byte ≤ 0xEF then some ⟨2, 0x80, 0xBF⟩
  else if byte = 0xF0 then some ⟨3, 0x90, 0xBF⟩
  else if 0xF1 ≤ byte ∧ byte ≤ 0xF3 then some ⟨3, 0x80, 0xBF⟩
  else if byte = 0xF4 then some ⟨3, 0x80, 0x8F⟩
  else none

/-- `10xxxxxx`. -/
def IsTail (byte : UInt8) : Prop := 0x80 ≤ byte.toNat ∧ byte.toNat ≤ 0xBF

/-- The bytes may follow a first byte with this range for the first of them. -/
def TailsFit : Nat → Nat → List UInt8 → Prop
  | _, _, [] => True
  | low, high, byte :: rest => (low ≤ byte.toNat ∧ byte.toNat ≤ high) ∧ TailsFit 0x80 0xBF rest

variable {byte : Nat}

theorem lead?_bounds {lead : Lead} (found : lead? byte = some lead) :
    (byte ≤ 0x7F ∨ 0xC2 ≤ byte) ∧ 0x80 ≤ lead.low ∧ lead.low ≤ lead.high ∧ lead.high ≤ 0xBF := by
  unfold lead? at found
  split_ifs at found <;> cases found <;> simp only <;> omega

variable {low high : Nat} {bytes : List UInt8}

theorem TailsFit.isTail (fit : TailsFit low high bytes) (floor : 0x80 ≤ low) (ceiling : high ≤ 0xBF) :
    ∀ byte ∈ bytes, IsTail byte := by
  induction bytes generalizing low high with
  | nil => simp
  | cons byte rest ih =>
    obtain ⟨here, later⟩ := fit
    intro other member
    rcases mem_cons.mp member with rfl | member
    · exact ⟨by omega, by omega⟩
    · exact ih later (by decide) (by decide) other member

theorem TailsFit.append_left {more : List UInt8} (fit : TailsFit low high (bytes ++ more)) :
    TailsFit low high bytes := by
  induction bytes generalizing low high with
  | nil => trivial
  | cons byte rest ih => exact ⟨fit.1, ih fit.2⟩

/-- Tails that fit can be completed to any length. -/
theorem TailsFit.complete (fit : TailsFit low high bytes) (proper : low ≤ high)
    (ceiling : high ≤ 0xBF) {count : Nat} (short : bytes.length < count) :
    ∃ rest, rest ≠ [] ∧ (bytes ++ rest).length = count ∧ TailsFit low high (bytes ++ rest) := by
  induction bytes generalizing low high count with
  | nil =>
    have filler : ∀ n, TailsFit 0x80 0xBF (List.replicate n 0x80) := by
      intro n
      induction n with
      | zero => trivial
      | succ n ih => exact ⟨by decide, ih⟩
    have value : (ofNat low).toNat = low := UInt8.toNat_ofNat_of_lt' (by
      show low < 256
      omega)
    refine ⟨ofNat low :: List.replicate (count - 1) 0x80, cons_ne_nil _ _, ?_,
      by omega, filler _⟩
    simp only [nil_append, length_cons, length_replicate]
    omega
  | cons byte rest ih =>
    simp only [length_cons] at short
    obtain ⟨more, nonempty, length, fits⟩ :=
      ih fit.2 (by decide) (by decide) (show rest.length < count - 1 by omega)
    refine ⟨more, nonempty, ?_, fit.1, fits⟩
    rw [cons_append, length_cons]
    omega

theorem lead?_three (low : 0xE0 ≤ byte) (high : byte ≤ 0xEF) :
    lead? byte = some ⟨2, if byte = 0xE0 then 0xA0 else 0x80, if byte = 0xED then 0x9F else 0xBF⟩ := by
  unfold lead?
  split_ifs <;> first | rfl | omega

theorem lead?_four (low : 0xF0 ≤ byte) (high : byte ≤ 0xF4) :
    lead? byte = some ⟨3, if byte = 0xF0 then 0x90 else 0x80, if byte = 0xF4 then 0x8F else 0xBF⟩ := by
  unfold lead?
  split_ifs <;> first | rfl | omega

variable {n : Nat}

theorem toNat_ofNat_byte (small : n < 256) : (ofNat n).toNat = n :=
  UInt8.toNat_ofNat_of_lt' small

/-- The bytes of the character with number `v`. -/
def encodeValue (v : Nat) : List UInt8 :=
  if v ≤ 127 then [ofNat v]
  else if v ≤ 2047 then [ofNat (v / 64 % 32 + 192), ofNat (v % 64 + 128)]
  else if v ≤ 65535 then
    [ofNat (v / 4096 % 16 + 224), ofNat (v / 64 % 64 + 128), ofNat (v % 64 + 128)]
  else
    [ofNat (v / 262144 % 8 + 240), ofNat (v / 4096 % 64 + 128),
      ofNat (v / 64 % 64 + 128), ofNat (v % 64 + 128)]

theorem utf8EncodeChar_eq (c : Char) : String.utf8EncodeChar c = encodeValue c.val.toNat := rfl

/-- Every encoding is described by the table. -/
theorem lead?_utf8EncodeChar (c : Char) : ∃ first tails lead,
    String.utf8EncodeChar c = first :: tails ∧ lead? first.toNat = some lead ∧
      tails.length = lead.tails ∧ TailsFit lead.low lead.high tails := by
  have valid : c.val.toNat < 0xD800 ∨ 0xDFFF < c.val.toNat ∧ c.val.toNat < 0x110000 := c.valid
  rw [utf8EncodeChar_eq, encodeValue]
  generalize c.val.toNat = v at valid
  by_cases one : v ≤ 127
  · rw [if_pos one]
    refine ⟨_, [], ⟨0, 0x80, 0xBF⟩, rfl, ?_, rfl, trivial⟩
    rw [toNat_ofNat_byte (by omega), lead?, if_pos one]
  rw [if_neg one]
  by_cases two : v ≤ 2047
  · rw [if_pos two]
    refine ⟨_, _, ⟨1, 0x80, 0xBF⟩, rfl, ?_, rfl, ?_, trivial⟩
    · rw [toNat_ofNat_byte (by omega), lead?, if_neg (by omega), if_pos (by omega)]
    · rw [toNat_ofNat_byte (by omega)]
      dsimp only
      omega
  rw [if_neg two]
  by_cases three : v ≤ 65535
  · rw [if_pos three]
    refine ⟨_, _, _, rfl, lead?_three ?_ ?_, rfl, ?_, ?_, trivial⟩
    all_goals rw [toNat_ofNat_byte (by omega)]
    · omega
    · omega
    · rw [toNat_ofNat_byte (by omega)]
      dsimp only
      split_ifs <;> omega
    · omega
  · rw [if_neg three]
    refine ⟨_, _, _, rfl, lead?_four ?_ ?_, rfl, ?_, ?_, ?_, trivial⟩
    all_goals rw [toNat_ofNat_byte (by omega)]
    · omega
    · omega
    · rw [toNat_ofNat_byte (by omega)]
      dsimp only
      split_ifs <;> omega
    · omega
    · omega

variable {v : Nat}

theorem isScalar_encodeValue (valid : v.isValidChar) : IsScalar (encodeValue v) :=
  ⟨Char.ofNatAux v valid, rfl⟩

variable {first : UInt8} {tails : List UInt8}

/-- The table describes only encodings. -/
theorem isScalar_of_lead? {lead : Lead} (found : lead? first.toNat = some lead)
    (length : tails.length = lead.tails) (fit : TailsFit lead.low lead.high tails) :
    IsScalar (first :: tails) := by
  have byte : ∀ {n : Nat} {b : UInt8}, n = b.toNat → ofNat n = b := by
    rintro _ b rfl
    exact UInt8.ofNat_toNat
  by_cases one : first.toNat ≤ 0x7F
  · rw [lead?, if_pos one] at found
    cases found
    rw [eq_nil_of_length_eq_zero length]
    have encoded : encodeValue first.toNat = [first] := by rw [encodeValue, if_pos one, byte rfl]
    exact encoded ▸ isScalar_encodeValue (.inl (by omega))
  by_cases two : 0xC2 ≤ first.toNat ∧ first.toNat ≤ 0xDF
  · rw [lead?, if_neg one, if_pos two] at found
    cases found
    obtain ⟨b, rfl⟩ := length_eq_one_iff.mp length
    obtain ⟨⟨low, high⟩, -⟩ := fit
    dsimp only at low high
    generalize value : (first.toNat - 0xC0) * 64 + (b.toNat - 0x80) = v
    have encoded : encodeValue v = [first, b] := by
      rw [encodeValue, if_neg (by omega), if_pos (by omega), byte (b := first) (by omega),
        byte (b := b) (by omega)]
    exact encoded ▸ isScalar_encodeValue (.inl (by omega))
  by_cases three : 0xE0 ≤ first.toNat ∧ first.toNat ≤ 0xEF
  · rw [lead?_three three.1 three.2] at found
    cases found
    obtain ⟨b, c, rfl⟩ := length_eq_two.mp length
    obtain ⟨⟨low, high⟩, ⟨low', high'⟩, -⟩ := fit
    dsimp only at low high
    generalize value : (first.toNat - 0xE0) * 4096 + (b.toNat - 0x80) * 64 + (c.toNat - 0x80) = v
    have valid : v.isValidChar := by
      split_ifs at low high <;> omega
    have range : 2047 < v ∧ v ≤ 65535 := by split_ifs at low high <;> omega
    have atLeast : 0x80 ≤ b.toNat ∧ b.toNat ≤ 0xBF := by split_ifs at low high <;> omega
    have encoded : encodeValue v = [first, b, c] := by
      rw [encodeValue, if_neg (by omega), if_neg (by omega), if_pos range.2,
        byte (b := first) (by omega), byte (b := b) (by omega), byte (b := c) (by omega)]
    exact encoded ▸ isScalar_encodeValue valid
  · have four : 0xF0 ≤ first.toNat ∧ first.toNat ≤ 0xF4 := by
      unfold lead? at found
      split_ifs at found <;> omega
    rw [lead?_four four.1 four.2] at found
    cases found
    obtain ⟨b, c, d, rfl⟩ := length_eq_three.mp length
    obtain ⟨⟨low, high⟩, ⟨low', high'⟩, ⟨low'', high''⟩, -⟩ := fit
    dsimp only at low high
    generalize value : (first.toNat - 0xF0) * 262144 + (b.toNat - 0x80) * 4096 +
      (c.toNat - 0x80) * 64 + (d.toNat - 0x80) = v
    have range : 65535 < v ∧ v < 0x110000 := by split_ifs at low high <;> omega
    have atLeast : 0x80 ≤ b.toNat ∧ b.toNat ≤ 0xBF := by split_ifs at low high <;> omega
    have encoded : encodeValue v = [first, b, c, d] := by
      rw [encodeValue, if_neg (by omega), if_neg (by omega), if_neg (by omega),
        byte (b := first) (by omega), byte (b := b) (by omega), byte (b := c) (by omega),
        byte (b := d) (by omega)]
    exact encoded ▸ isScalar_encodeValue (.inr ⟨by omega, range.2⟩)

/-- Whether bytes are a scalar can be read off the table. -/
theorem isScalar_cons_iff :
    IsScalar (first :: tails) ↔ ∃ lead, lead? first.toNat = some lead ∧
      tails.length = lead.tails ∧ TailsFit lead.low lead.high tails := by
  constructor
  · rintro ⟨c, encoded⟩
    obtain ⟨first', tails', lead, same, fit⟩ := lead?_utf8EncodeChar c
    obtain ⟨rfl, rfl⟩ := List.cons.inj (encoded.trans same)
    exact ⟨lead, fit⟩
  · rintro ⟨lead, found, length, fit⟩
    exact isScalar_of_lead? found length fit

theorem isScalarStart_cons_iff :
    IsScalarStart (first :: tails) ↔ ∃ lead, lead? first.toNat = some lead ∧
      tails.length < lead.tails ∧ TailsFit lead.low lead.high tails := by
  constructor
  · rintro ⟨-, rest, nonempty, scalar⟩
    obtain ⟨lead, found, length, fit⟩ := isScalar_cons_iff.mp scalar
    have more := length_pos_of_ne_nil nonempty
    change (tails ++ rest).length = lead.tails at length
    rw [length_append] at length
    exact ⟨lead, found, by omega, fit.append_left⟩
  · rintro ⟨lead, found, short, fit⟩
    obtain ⟨-, -, proper, ceiling⟩ := lead?_bounds found
    obtain ⟨rest, nonempty, length, fits⟩ := fit.complete proper ceiling short
    exact ⟨cons_ne_nil _ _, rest, nonempty, isScalar_cons_iff.mpr ⟨lead, found, length, fits⟩⟩

/-- A scalar, whole or not, is a first byte and then continuation bytes. -/
theorem IsScalar.not_isTail (scalar : IsScalar (first :: tails)) :
    ¬ IsTail first ∧ ∀ byte ∈ tails, IsTail byte := by
  obtain ⟨lead, found, -, fit⟩ := isScalar_cons_iff.mp scalar
  obtain ⟨outside, floor, -, ceiling⟩ := lead?_bounds found
  refine ⟨fun inside => ?_, fit.isTail floor ceiling⟩
  obtain ⟨low, high⟩ := inside
  omega

theorem IsScalarStart.not_isTail (start : IsScalarStart (first :: tails)) :
    ¬ IsTail first ∧ ∀ byte ∈ tails, IsTail byte := by
  obtain ⟨-, rest, -, scalar⟩ := start
  obtain ⟨head, later⟩ := scalar.not_isTail
  exact ⟨head, fun byte member => later byte (mem_append_left rest member)⟩

theorem not_isScalar_nil : ¬ IsScalar [] := by
  rintro ⟨c, encoded⟩
  obtain ⟨first, tails, lead, same, -⟩ := lead?_utf8EncodeChar c
  cases encoded.trans same

/-! ## One item -/

/-- What stands at the front of a byte string. -/
inductive Item where
  | scalar (length : Nat)
  | malformed (length : Nat)
  | incomplete
deriving DecidableEq

/-- The bytes behind a first byte, with the number of bytes read. -/
def scanTails : Nat → Nat → Nat → Nat → List UInt8 → Item
  | 0, _, _, read, _ => .scalar read
  | _ + 1, _, _, _, [] => .incomplete
  | tails + 1, low, high, read, byte :: rest =>
    if low ≤ byte.toNat ∧ byte.toNat ≤ high then scanTails tails 0x80 0xBF (read + 1) rest
    else .malformed read

def step (first : UInt8) (rest : List UInt8) : Item :=
  match lead? first.toNat with
  | none => .malformed 1
  | some lead => scanTails lead.tails lead.low lead.high 1 rest

variable {read : Nat} {rest : List UInt8} {tails : Nat}

theorem scanTails_scalar (read_ : scanTails tails low high read rest = .scalar n) :
    n = read + tails ∧ tails ≤ rest.length ∧ TailsFit low high (rest.take tails) := by
  induction tails generalizing low high read rest with
  | zero =>
    cases read_
    exact ⟨rfl, Nat.zero_le _, by trivial⟩
  | succ tails ih =>
    cases rest with
    | nil => cases read_
    | cons byte rest =>
      rw [scanTails] at read_
      split at read_
      next here =>
        obtain ⟨length, within, fit⟩ := ih read_
        exact ⟨by omega, Nat.succ_le_succ within, here, fit⟩
      · cases read_

theorem scanTails_incomplete_iff :
    scanTails tails low high read rest = .incomplete ↔
      rest.length < tails ∧ TailsFit low high rest := by
  induction tails generalizing low high read rest with
  | zero => simp [scanTails]
  | succ tails ih =>
    cases rest with
    | nil => simp [scanTails, TailsFit]
    | cons byte rest =>
      rw [scanTails]
      split
      next here => simp only [ih, length_cons, Nat.add_lt_add_iff_right, TailsFit, here,
        and_self, true_and]
      next notHere => simp only [TailsFit, notHere, false_and, and_false, reduceCtorEq]

theorem scanTails_malformed (read_ : scanTails tails low high read rest = .malformed n) :
    ∃ count, n = read + count ∧ TailsFit low high (rest.take count) := by
  induction tails generalizing low high read rest with
  | zero => cases read_
  | succ tails ih =>
    cases rest with
    | nil => cases read_
    | cons byte rest =>
      rw [scanTails] at read_
      split at read_
      next here =>
        obtain ⟨count, length, fit⟩ := ih read_
        exact ⟨count + 1, by omega, here, fit⟩
      · cases read_
        exact ⟨0, rfl, trivial⟩

theorem step_scalar (read : step first rest = .scalar n) :
    0 < n ∧ n ≤ (first :: rest).length ∧ IsScalar ((first :: rest).take n) := by
  rw [step] at read
  split at read
  · cases read
  next lead found =>
    obtain ⟨length, within, fit⟩ := scanTails_scalar read
    rw [length, Nat.add_comm 1 lead.tails, length_cons]
    refine ⟨by omega, by omega, isScalar_cons_iff.mpr ⟨lead, found, ?_, fit⟩⟩
    rw [length_take, Nat.min_eq_left within]

theorem step_incomplete_iff : step first rest = .incomplete ↔ IsScalarStart (first :: rest) := by
  rw [isScalarStart_cons_iff, step]
  split
  next none_ => simp [none_]
  next lead found => simp [found, scanTails_incomplete_iff]

theorem step_malformed (read : step first rest = .malformed n) :
    0 < n ∧ ∀ byte ∈ rest.take (n - 1), IsTail byte := by
  rw [step] at read
  split at read
  · cases read
    exact ⟨by decide, by simp⟩
  next lead found =>
    obtain ⟨count, length, fit⟩ := scanTails_malformed read
    obtain ⟨-, floor, -, ceiling⟩ := lead?_bounds found
    rw [length, Nat.add_sub_cancel_left]
    exact ⟨by omega, fit.isTail floor ceiling⟩

/-! ## Where an incomplete scalar can begin -/

variable {a : Nat}

/-- No incomplete scalar begins in an item that is followed by something else. -/
theorem le_of_isScalarStart_drop (complete : ¬ IsScalarStart (first :: rest))
    (tails : ∀ byte ∈ rest.take (n - 1), IsTail byte)
    (start : IsScalarStart ((first :: rest).drop a)) : n ≤ a := by
  by_contra early
  cases a with
  | zero => exact complete start
  | succ a =>
    rw [drop_succ_cons] at start
    match suffix : rest.drop a with
    | [] => exact (suffix ▸ start).1 rfl
    | byte :: later =>
      rw [suffix] at start
      have at_ : rest[a]? = some byte := by
        have head := congrArg List.head? suffix
        rwa [head?_drop] at head
      have member : byte ∈ rest.take (n - 1) := by
        apply mem_of_getElem? (i := a)
        rw [getElem?_take_of_lt (by omega), at_]
      exact start.not_isTail.1 (tails byte member)

/-- Behind a scalar, what begins incomplete begins so in the rest. -/
theorem IsScalar.isScalarStart_append {scalar : List UInt8} (isScalar : IsScalar scalar)
    (start : IsScalarStart ((scalar ++ rest).drop a)) :
    scalar.length ≤ a ∧ IsScalarStart (rest.drop (a - scalar.length)) := by
  match scalar, isScalar with
  | [], isScalar => exact absurd isScalar not_isScalar_nil
  | first :: tails, isScalar =>
    have complete : ¬ IsScalarStart (first :: (tails ++ rest)) := by
      intro longer
      obtain ⟨lead, found, length, -⟩ := isScalar_cons_iff.mp isScalar
      obtain ⟨lead', found', short, -⟩ := isScalarStart_cons_iff.mp longer
      cases found.symm.trans found'
      rw [length_append] at short
      omega
    have behind : (first :: tails).length ≤ a := by
      refine le_of_isScalarStart_drop complete ?_ start
      rw [length_cons, Nat.add_sub_cancel, take_left]
      exact isScalar.not_isTail.2
    refine ⟨behind, ?_⟩
    rwa [drop_append, drop_of_length_le behind] at start

/-- A byte string that is all scalars. -/
inductive Scalars : List UInt8 → Prop
  | nil : Scalars []
  | cons {scalar rest : List UInt8} : IsScalar scalar → Scalars rest → Scalars (scalar ++ rest)

/-- The fields of `std::str::Utf8Error`. -/
structure Utf8Error where
  validUpTo : Nat
  errorLen : Option Nat
deriving DecidableEq

def Utf8Error.shift (n : Nat) (error : Utf8Error) : Utf8Error :=
  { error with validUpTo := n + error.validUpTo }

/-- One item takes at least one byte, so the input's length is enough fuel. -/
def validate : Nat → List UInt8 → Except Utf8Error Unit
  | 0, _ => .ok ()
  | _ + 1, [] => .ok ()
  | fuel + 1, first :: rest =>
    match step first rest with
    | .scalar n => (validate fuel ((first :: rest).drop n)).mapError (.shift n)
    | .malformed n => .error ⟨0, some n⟩
    | .incomplete => .error ⟨0, none⟩

/-- `std::str::from_utf8`. -/
def fromUtf8 (bytes : List UInt8) : Except Utf8Error Unit := validate bytes.length bytes

/-- Behind a scalar, what begins incomplete in the whole input begins so in the rest. -/
theorem isScalarStart_behind (read : step first rest = .scalar n)
    (start : IsScalarStart ((first :: rest).drop a)) :
    n ≤ a ∧ IsScalarStart (((first :: rest).drop n).drop (a - n)) := by
  obtain ⟨-, within, scalar⟩ := step_scalar read
  rw [← take_append_drop n (first :: rest)] at start
  have behind := scalar.isScalarStart_append start
  rwa [length_take, Nat.min_eq_left within] at behind

/-- What the three answers mean: every scalar is whole, none begins before the end of what is
malformed, or one begins where the answer says. -/
theorem validate_spec {fuel : Nat} (enough : bytes.length ≤ fuel) :
    (validate fuel bytes = .ok () ∧ Scalars bytes) ∨
    (∃ v n, validate fuel bytes = .error ⟨v, some n⟩ ∧ 0 < n ∧
      ∀ a, IsScalarStart (bytes.drop a) → v + n ≤ a) ∨
    ∃ v, validate fuel bytes = .error ⟨v, none⟩ ∧ IsScalarStart (bytes.drop v) := by
  induction fuel generalizing bytes with
  | zero =>
    rw [eq_nil_of_length_eq_zero (Nat.le_zero.mp enough)]
    exact .inl ⟨rfl, .nil⟩
  | succ fuel ih =>
    match bytes with
    | [] => exact .inl ⟨rfl, .nil⟩
    | first :: rest =>
      rw [validate]
      match read : step first rest with
      | .scalar m =>
        obtain ⟨positive, within, scalar⟩ := step_scalar read
        have shorter : ((first :: rest).drop m).length ≤ fuel := by
          rw [length_drop]
          omega
        obtain ⟨ok, scalars⟩ | ⟨v, n, failed, some_, later⟩ | ⟨v, failed, start⟩ := ih shorter
        · refine .inl ⟨by simp only [ok, Except.mapError], ?_⟩
          rw [← take_append_drop m (first :: rest)]
          exact .cons scalar scalars
        · refine .inr (.inl ⟨m + v, n, by simp only [failed, Except.mapError, Utf8Error.shift],
            some_, fun a start => ?_⟩)
          obtain ⟨behind, start⟩ := isScalarStart_behind read start
          have inRest := later (a - m) start
          omega
        · refine .inr (.inr ⟨m + v, by simp only [failed, Except.mapError, Utf8Error.shift], ?_⟩)
          rwa [← drop_drop]
      | .malformed m =>
        obtain ⟨positive, tails⟩ := step_malformed read
        refine .inr (.inl ⟨0, m, rfl, positive, fun a start => ?_⟩)
        rw [Nat.zero_add]
        refine le_of_isScalarStart_drop ?_ tails start
        rw [← step_incomplete_iff, read]
        exact Item.noConfusion
      | .incomplete => exact .inr (.inr ⟨0, rfl, step_incomplete_iff.mp read⟩)

/-- Nothing incomplete begins in a string of scalars. -/
theorem Scalars.not_isScalarStart (scalars : Scalars bytes) (a : Nat) :
    ¬ IsScalarStart (bytes.drop a) := by
  induction scalars generalizing a with
  | nil => simp [IsScalarStart]
  | cons isScalar _ ih => exact fun start => ih _ (isScalar.isScalarStart_append start).2

/-! ## Positions inside a scalar -/

variable {p : Nat}

/-- A continuation byte of a string of scalars lies inside one of them. -/
theorem Scalars.insideScalar (scalars : Scalars bytes) {byte : UInt8} (here : bytes[p]? = some byte)
    (tail : IsTail byte) : InsideScalar bytes p := by
  induction scalars generalizing p with
  | nil => simp at here
  | @cons scalar rest isScalar _ ih =>
    by_cases within : p < scalar.length
    · -- The first byte of a scalar is no continuation byte.
      have later : 0 < p := by
        rw [Nat.pos_iff_ne_zero]
        rintro rfl
        match scalar, isScalar with
        | [], isScalar => exact not_isScalar_nil isScalar
        | first :: tails, isScalar =>
          cases here
          exact isScalar.not_isTail.1 tail
      refine ⟨0, scalar.length, later, within, by simp, ?_⟩
      rwa [slice_append_left _ (Nat.le_refl _), slice_zero_length]
    · rw [getElem?_append_right (Nat.not_lt.mp within)] at here
      obtain ⟨first, last, before, behind, bounded, inRest⟩ := ih here
      refine ⟨scalar.length + first, scalar.length + last, by omega, by omega, ?_, ?_⟩
      · rw [length_append]
        omega
      · rwa [slice_append_right]

variable {stream : List UInt8}

/-- The byte at a position inside a scalar is a continuation byte. -/
theorem InsideScalar.isTail (inside : InsideScalar stream p) :
    ∃ byte, stream[p]? = some byte ∧ IsTail byte := by
  obtain ⟨first, last, before, behind, bounded, scalar⟩ := inside
  obtain ⟨byte, here⟩ : ∃ byte, stream[p]? = some byte :=
    ⟨_, getElem?_eq_getElem (by omega)⟩
  refine ⟨byte, here, ?_⟩
  obtain ⟨k, rfl⟩ : ∃ k, p = first + (k + 1) := ⟨p - first - 1, by omega⟩
  rw [← getElem?_slice stream behind] at here
  match found : slice stream first last, scalar with
  | [], scalar => exact absurd scalar not_isScalar_nil
  | lead :: tails, scalar =>
    rw [found] at here
    exact scalar.not_isTail.2 byte (mem_of_getElem? here)

/-- A position inside a scalar of a part of the stream is inside one of the stream. -/
theorem InsideScalar.of_slice {i j : Nat} (within : j ≤ stream.length)
    (inside : InsideScalar (slice stream i j) p) : InsideScalar stream (i + p) := by
  obtain ⟨first, last, before, behind, bounded, scalar⟩ := inside
  rw [slice_length_eq stream within] at bounded
  rw [slice_slice stream (by omega)] at scalar
  exact ⟨i + first, i + last, by omega, by omega, by omega, scalar⟩

end Alera.Theory.Utf8

namespace Alera.Theory

/-! ## The text of a byte string

`encodeUtf8` is the encoding of a text, character by character as the core library has it.
Bytes are read item by item as `std::str::from_utf8` does (`Utf8.step`).  `decodeUtf8` is
the text of bytes that are UTF-8 throughout; `fromUtf8Lossy` puts the replacement
character for every malformed sequence and for an incomplete one at the end.
-/

def encodeUtf8 (text : List Char) : List UInt8 := text.flatMap String.utf8EncodeChar

/-- A byte below 128 stands for itself and in no other character. -/
theorem eq_of_mem_utf8EncodeChar {c : Char} {byte : UInt8} (ascii : byte.toNat < 128)
    (member : byte ∈ String.utf8EncodeChar c) : c.toNat = byte.toNat := by
  show c.val.toNat = byte.toNat
  unfold String.utf8EncodeChar at member
  simp only at member
  split at member
  · have same : byte = UInt8.ofNat c.val.toNat := by simpa using member
    have value := congrArg UInt8.toNat same
    rw [UInt8.toNat_ofNat'] at value
    omega
  -- every byte of a longer encoding is at least 128
  · split at member
    · simp [← UInt8.toNat_inj] at member
      omega
    · split at member
      · simp [← UInt8.toNat_inj] at member
        omega
      · simp [← UInt8.toNat_inj] at member
        omega

theorem exists_char_of_mem_encodeUtf8 {text : List Char} {byte : UInt8} (ascii : byte.toNat < 128)
    (member : byte ∈ encodeUtf8 text) : ∃ c ∈ text, c.toNat = byte.toNat := by
  obtain ⟨c, inside, here⟩ := List.mem_flatMap.mp member
  exact ⟨c, inside, eq_of_mem_utf8EncodeChar ascii here⟩

/-- The core library's decoder reads a text back. -/
theorem utf8Decode_encodeUtf8 (text : List Char) :
    (encodeUtf8 text).toByteArray.utf8Decode? = some text.toArray :=
  List.utf8Decode?_utf8Encode

namespace Utf8

/-- The character a scalar encodes. -/
def decodeScalar : List UInt8 → Char
  | [a] => Char.ofNat a.toNat
  | [a, b] => Char.ofNat (a.toNat % 32 * 64 + b.toNat % 64)
  | [a, b, c] => Char.ofNat (a.toNat % 16 * 4096 + b.toNat % 64 * 64 + c.toNat % 64)
  | [a, b, c, d] =>
    Char.ofNat (a.toNat % 8 * 262144 + b.toNat % 64 * 4096 + c.toNat % 64 * 64 + d.toNat % 64)
  | _ => '�'

/-- Every item takes at least one byte, so the input's length is enough fuel. -/
def decodeFrom : Nat → List UInt8 → Option (List Char)
  | 0, _ => some []
  | _ + 1, [] => some []
  | fuel + 1, first :: rest =>
    match step first rest with
    | .scalar n =>
      (decodeFrom fuel ((first :: rest).drop n)).map
        (decodeScalar ((first :: rest).take n) :: ·)
    | .malformed _ => none
    | .incomplete => none

/-- The text of `std::str::from_utf8`, if there is one. -/
def decodeUtf8 (bytes : List UInt8) : Option (List Char) := decodeFrom bytes.length bytes

def lossyFrom : Nat → List UInt8 → List Char
  | 0, _ => []
  | _ + 1, [] => []
  | fuel + 1, first :: rest =>
    match step first rest with
    | .scalar n => decodeScalar ((first :: rest).take n) :: lossyFrom fuel ((first :: rest).drop n)
    | .malformed n => '�' :: lossyFrom fuel ((first :: rest).drop n)
    | .incomplete => ['�']

/-- `String::from_utf8_lossy`. -/
def fromUtf8Lossy (bytes : List UInt8) : List Char := lossyFrom bytes.length bytes

theorem encodeUtf8_append (text later : List Char) :
    encodeUtf8 (text ++ later) = encodeUtf8 text ++ encodeUtf8 later := by
  rw [encodeUtf8, List.flatMap_append]
  rfl

end Alera.Theory.Utf8
