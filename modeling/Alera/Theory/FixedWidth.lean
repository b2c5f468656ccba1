/-
# Alera.Theory.FixedWidth -- numbers of a fixed width, in bytes and in counters

`toBE width value` is the big-endian encoding of `value mod 256 ^ width` in exactly
`width` bytes and `ofBE` reads one back.  A fixed width makes the encoding a
code: it can be cut off the front of a byte string again (`toBE_append_inj`), and
a length that fits its width delimits the bytes behind it (`lengthPrefixed_inj`).
-/
import Mathlib.Data.List.Basic
import Mathlib.Algebra.Ring.Nat
import Mathlib.Algebra.Ring.Int.Defs

namespace Alera.Theory

set_option autoImplicit false

/-- `width` bytes, most significant first. -/
def toBE : Nat → Nat → List UInt8
  | 0, _ => []
  | width + 1, value => toBE width (value / 256) ++ [UInt8.ofNat value]

/-- The number a byte string denotes. -/
def ofBE (bytes : List UInt8) : Nat :=
  bytes.foldl (fun value byte => value * 256 + byte.toNat) 0

@[simp] theorem toBE_length (width value : Nat) : (toBE width value).length = width := by
  induction width generalizing value with
  | zero => rfl
  | succ width ih => simp [toBE, ih]

theorem ofBE_concat (bytes : List UInt8) (byte : UInt8) :
    ofBE (bytes ++ [byte]) = ofBE bytes * 256 + byte.toNat := by
  simp [ofBE]

theorem ofBE_toBE {width value : Nat} (fits : value < 256 ^ width) :
    ofBE (toBE width value) = value := by
  induction width generalizing value with
  | zero =>
    have zero : value = 0 := by simpa using fits
    rw [zero]
    rfl
  | succ width ih =>
    have high : value / 256 < 256 ^ width := by
      rw [Nat.div_lt_iff_lt_mul (by decide)]
      rwa [Nat.pow_succ] at fits
    have low : (UInt8.ofNat value).toNat = value % 256 := UInt8.toNat_ofNat' ..
    rw [toBE, ofBE_concat, ih high]
    omega

/-- Four bytes put together by shifts. -/
theorem shifts_eq_ofBE (a b c d : UInt8) :
    a.toNat <<< 24 ||| b.toNat <<< 16 ||| c.toNat <<< 8 ||| d.toNat = ofBE [a, b, c, d] := by
  have hb := b.toNat_lt
  have hc := c.toNat_lt
  have hd := d.toNat_lt
  rw [Nat.or_assoc, Nat.or_assoc, ← Nat.shiftLeft_add_eq_or_of_lt (show d.toNat < 2 ^ 8 from hd),
    ← Nat.shiftLeft_add_eq_or_of_lt (show c.toNat <<< 8 + d.toNat < 2 ^ 16 by omega),
    ← Nat.shiftLeft_add_eq_or_of_lt (show b.toNat <<< 16 + (c.toNat <<< 8 + d.toNat) < 2 ^ 24 by
      omega)]
  simp only [Nat.shiftLeft_eq, ofBE, List.foldl_cons, List.foldl_nil]
  omega

/-- Two bytes put together by a shift. -/
theorem shift_eq_ofBE (a b : UInt8) : a.toNat <<< 8 ||| b.toNat = ofBE [a, b] := by
  rw [← Nat.shiftLeft_add_eq_or_of_lt (show b.toNat < 2 ^ 8 from b.toNat_lt), Nat.shiftLeft_eq]
  simp [ofBE]

/-- Four bytes taken apart by shifts and masks. -/
theorem shifts_eq_toBE (value : Nat) :
    [UInt8.ofNat (value >>> 24 &&& 0xff), UInt8.ofNat (value >>> 16 &&& 0xff),
      UInt8.ofNat (value >>> 8 &&& 0xff), UInt8.ofNat (value &&& 0xff)] = toBE 4 value := by
  have masked : ∀ n : Nat, UInt8.ofNat (n &&& 0xff) = UInt8.ofNat n := by
    intro n
    rw [show (0xff : Nat) = 2 ^ 8 - 1 from rfl, Nat.and_two_pow_sub_one_eq_mod]
    apply UInt8.toNat_inj.mp
    simp
  simp [masked, toBE, Nat.shiftRight_eq_div_pow, Nat.div_div_eq_div_mul]

theorem toBE_inj {width x y : Nat} (fitsX : x < 256 ^ width) (fitsY : y < 256 ^ width)
    (same : toBE width x = toBE width y) : x = y := by
  rw [← ofBE_toBE fitsX, same, ofBE_toBE fitsY]

/-- A number of fixed width can be cut off the front. -/
theorem toBE_append_inj {width x y : Nat} {restX restY : List UInt8} (fitsX : x < 256 ^ width)
    (fitsY : y < 256 ^ width) (same : toBE width x ++ restX = toBE width y ++ restY) :
    x = y ∧ restX = restY := by
  obtain ⟨numbers, rests⟩ := List.append_inj same (by rw [toBE_length, toBE_length])
  exact ⟨toBE_inj fitsX fitsY numbers, rests⟩

/-- A byte string behind its own length. -/
def lengthPrefixed (width : Nat) (bytes : List UInt8) : List UInt8 :=
  toBE width bytes.length ++ bytes

/-- A length that fits its width delimits the bytes behind it. -/
theorem lengthPrefixed_inj {width : Nat} {x y restX restY : List UInt8}
    (fitsX : x.length < 256 ^ width) (fitsY : y.length < 256 ^ width)
    (same : lengthPrefixed width x ++ restX = lengthPrefixed width y ++ restY) :
    x = y ∧ restX = restY := by
  rw [lengthPrefixed, lengthPrefixed, List.append_assoc, List.append_assoc] at same
  obtain ⟨lengths, bodies⟩ := toBE_append_inj fitsX fitsY same
  exact List.append_inj bodies lengths

/-! ## Fixed-width arithmetic over `Nat` and `Int`

Counters keep their mathematical type and carry the width in the operation.  Away from
the limit each operation is the plain one; those are the lemmas proofs use.
-/

/-- The largest `u64`. -/
def u64Max : Nat := 2 ^ 64 - 1

/-- `u64::saturating_add`. -/
def saturatingAdd (a b : Nat) : Nat := min (a + b) u64Max

theorem saturatingAdd_of_le {a b : Nat} (fits : a + b ≤ u64Max) : saturatingAdd a b = a + b :=
  Nat.min_eq_left fits

/-- `u64::wrapping_add`, also what `AtomicU64::fetch_add` stores. -/
def wrappingAdd (a b : Nat) : Nat := (a + b) % 2 ^ 64

theorem wrappingAdd_of_le {a b : Nat} (fits : a + b ≤ u64Max) : wrappingAdd a b = a + b :=
  Nat.mod_eq_of_lt (by unfold u64Max at fits; omega)

/-- `u64::checked_add(1)`. -/
def checkedSucc (a : UInt64) : Option UInt64 :=
  if a.toNat = u64Max then none else some (a + 1)

theorem checkedSucc_eq_some {a b : UInt64} (succ : checkedSucc a = some b) :
    a.toNat < u64Max ∧ b.toNat = a.toNat + 1 := by
  unfold checkedSucc at succ
  split at succ
  · cases succ
  · rename_i below
    cases succ
    have bound := a.toNat_lt
    have room : a.toNat + 1 < 2 ^ 64 := by
      unfold u64Max at below
      omega
    refine ⟨?_, ?_⟩
    · unfold u64Max at below ⊢
      omega
    · exact Nat.mod_eq_of_lt room

theorem checkedSucc_eq_none {a : UInt64} : checkedSucc a = none ↔ a.toNat = u64Max := by
  unfold checkedSucc
  split <;> simp_all

/-- The largest `i64`. -/
def i64Max : Int := 2 ^ 63 - 1

/-- The smallest `i64`. -/
def i64Min : Int := -2 ^ 63

/-- `i64::wrapping_add(1)`. -/
def wrappingSucc (a : Int) : Int := if a = i64Max then i64Min else a + 1

/-- `i64::saturating_add(1)`. -/
def saturatingSucc (a : Int) : Int := if a = i64Max then i64Max else a + 1

theorem wrappingSucc_of_lt {a : Int} (below : a < i64Max) : wrappingSucc a = a + 1 :=
  if_neg (Int.ne_of_lt below)

theorem saturatingSucc_of_lt {a : Int} (below : a < i64Max) : saturatingSucc a = a + 1 :=
  if_neg (Int.ne_of_lt below)

end Alera.Theory
