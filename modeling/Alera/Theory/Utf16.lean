/-
# Alera.Theory.Utf16 -- strings of UTF-16 code units and their UTF-8 bytes

A string of a UTF-16 language is any list of code units, lone surrogates
included.  `fromUtf8` is the strict decoder of the Encoding standard: it accepts
shortest forms of Unicode scalar values only and keeps a byte order mark.
`toUtf8` is the total encoder, which writes a lone surrogate as U+FFFD.
-/
import Mathlib.Data.List.Basic

namespace Alera.Theory

open UInt8 (ofNat)

set_option autoImplicit false

/-- A string as its UTF-16 code units. -/
abbrev Utf16 := List UInt16

namespace Utf16

/-- The code units of one code point. -/
def ofCodePoint (point : Nat) : Utf16 :=
  if point < 0x10000 then [UInt16.ofNat point]
  else
    [UInt16.ofNat (0xD800 + (point - 0x10000) / 1024),
      UInt16.ofNat (0xDC00 + (point - 0x10000) % 1024)]

/-- A string literal. -/
def ofString (text : String) : Utf16 := text.toList.flatMap fun c => ofCodePoint c.toNat

/-! ## Decoding -/

/-- The six bits a continuation byte carries, if it lies in the given range. -/
def continuation (low high byte : UInt8) : Option Nat :=
  if low ≤ byte ∧ byte ≤ high then some (byte.toNat - 0x80) else none

/-- What may follow the lead byte of three: no overlong form and no surrogate. -/
def secondOfThree (lead byte : UInt8) : Option Nat :=
  if lead = 0xE0 then continuation 0xA0 0xBF byte
  else if lead = 0xED then continuation 0x80 0x9F byte
  else continuation 0x80 0xBF byte

/-- What may follow the lead byte of four: no overlong form and nothing past U+10FFFF. -/
def secondOfFour (lead byte : UInt8) : Option Nat :=
  if lead = 0xF0 then continuation 0x90 0xBF byte
  else if lead = 0xF4 then continuation 0x80 0x8F byte
  else continuation 0x80 0xBF byte

/-- Strict decoding: `none` at the first byte that is not well-formed UTF-8. -/
def fromUtf8 : List UInt8 → Option Utf16
  | [] => some []
  | a :: rest =>
    if a < 0x80 then (ofCodePoint a.toNat ++ ·) <$> fromUtf8 rest
    else
      match rest with
      | [] => none
      | b :: rest =>
        if 0xC2 ≤ a ∧ a ≤ 0xDF then do
          let y ← continuation 0x80 0xBF b
          (ofCodePoint ((a.toNat - 0xC0) * 64 + y) ++ ·) <$> fromUtf8 rest
        else
          match rest with
          | [] => none
          | c :: rest =>
            if 0xE0 ≤ a ∧ a ≤ 0xEF then do
              let y ← secondOfThree a b
              let z ← continuation 0x80 0xBF c
              (ofCodePoint (((a.toNat - 0xE0) * 64 + y) * 64 + z) ++ ·) <$> fromUtf8 rest
            else
              match rest with
              | [] => none
              | d :: rest =>
                if 0xF0 ≤ a ∧ a ≤ 0xF4 then do
                  let y ← secondOfFour a b
                  let z ← continuation 0x80 0xBF c
                  let w ← continuation 0x80 0xBF d
                  (ofCodePoint ((((a.toNat - 0xF0) * 64 + y) * 64 + z) * 64 + w) ++ ·) <$>
                    fromUtf8 rest
                else none

/-! ## Encoding -/

def isHighSurrogate (unit : UInt16) : Bool := 0xD800 ≤ unit && unit ≤ 0xDBFF

def isLowSurrogate (unit : UInt16) : Bool := 0xDC00 ≤ unit && unit ≤ 0xDFFF

/-- The bytes of a code point below U+10000. -/
def encodeShort (point : Nat) : List UInt8 :=
  if point < 0x80 then [ofNat point]
  else if point < 0x800 then [ofNat (0xC0 + point / 64), ofNat (0x80 + point % 64)]
  else
    [ofNat (0xE0 + point / 4096), ofNat (0x80 + point / 64 % 64),
      ofNat (0x80 + point % 64)]

/-- The bytes of the code point a surrogate pair stands for. -/
def encodePair (high low : UInt16) : List UInt8 :=
  let point := 0x10000 + (high.toNat - 0xD800) * 1024 + (low.toNat - 0xDC00)
  [ofNat (0xF0 + point / 262144), ofNat (0x80 + point / 4096 % 64),
    ofNat (0x80 + point / 64 % 64), ofNat (0x80 + point % 64)]

/-- Total encoding; a surrogate without its partner becomes U+FFFD. -/
def toUtf8 : Utf16 → List UInt8
  | [] => []
  | [unit] =>
    if isHighSurrogate unit || isLowSurrogate unit then encodeShort 0xFFFD
    else encodeShort unit.toNat
  | unit :: next :: rest =>
    if isHighSurrogate unit && isLowSurrogate next then encodePair unit next ++ toUtf8 rest
    else if isHighSurrogate unit || isLowSurrogate unit then
      encodeShort 0xFFFD ++ toUtf8 (next :: rest)
    else encodeShort unit.toNat ++ toUtf8 (next :: rest)

theorem encodeShort_length_le (point : Nat) : (encodeShort point).length ≤ 3 := by
  unfold encodeShort
  split
  · exact (by decide : 1 ≤ 3)
  · split
    · exact (by decide : 2 ≤ 3)
    · exact Nat.le_refl 3

/-- A code unit takes at most three bytes; a pair takes four. -/
theorem toUtf8_length_le (text : Utf16) : (toUtf8 text).length ≤ 3 * text.length := by
  fun_induction toUtf8 text with
  | case1 => exact Nat.le_refl 0
  | case2 unit lone | case3 unit plain => exact encodeShort_length_le _
  | case4 unit next rest pair ih =>
    simp only [encodePair, List.length_append, List.length_cons, List.length_nil]
    omega
  | case5 unit next rest notPair lone ih =>
    have short := encodeShort_length_le 0xFFFD
    simp only [List.length_append, List.length_cons] at ih ⊢
    omega
  | case6 unit next rest notPair plain ih =>
    have short := encodeShort_length_le unit.toNat
    simp only [List.length_append, List.length_cons] at ih ⊢
    omega

example : (fromUtf8 [0xF0, 0x9F, 0x98, 0x80]).map toUtf8 = some [0xF0, 0x9F, 0x98, 0x80] := by
  decide

end Utf16

end Alera.Theory
