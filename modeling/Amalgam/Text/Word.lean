import Amalgam.Text.Basic
import Amalgam.Text.WordTable

/-! # Word characters and decimal digits

A word character is a letter, a digit or another numeral of any script, or the underscore. Combining
marks, joiners, symbols and halves of surrogate pairs are none. A decimal digit is one of the ten
digits of some script.
-/

namespace Amalgam.Text

def inRanges (ranges : List (Nat × Nat)) (n : Nat) : Bool :=
  ranges.any fun (low, high) => low ≤ n && n ≤ high

def isWordChar : CodePoint → Bool
  | .char c => if c.toNat < 0x80 then c.isAlphanum || c == '_' else inRanges wordRanges c.toNat
  | .surrogate _ => false

theorem isWordChar_of_isAlpha {c : Char} (h : c.isAlpha = true) : isWordChar c = true := by
  have hAscii : c.toNat < 0x80 := by
    rcases Bool.or_eq_true_iff.mp h with hUpper | hLower
    · have hLast : c.toNat ≤ 90 := UInt32.le_iff_toNat_le.mp (of_decide_eq_true hUpper).2
      omega
    · have hLast := of_decide_eq_true (Bool.and_eq_true_iff.mp hLower).2
      have hLast : c.toNat ≤ 122 := UInt32.le_iff_toNat_le.mp hLast
      omega
  rw [isWordChar, if_pos hAscii, Char.isAlphanum, h, Bool.true_or, Bool.true_or]

/-- The code point of the digit zero of each script that counts in tens. -/
def decimalZeros : List Nat := [
  0x30, 0x660, 0x6F0, 0x7C0, 0x966, 0x9E6, 0xA66, 0xAE6, 0xB66, 0xBE6, 0xC66, 0xCE6, 0xD66, 0xDE6,
  0xE50, 0xED0, 0xF20, 0x1040, 0x1090, 0x17E0, 0x1810, 0x1946, 0x19D0, 0x1A80, 0x1A90, 0x1B50,
  0x1BB0, 0x1C40, 0x1C50, 0xA620, 0xA8D0, 0xA900, 0xA9D0, 0xA9F0, 0xAA50, 0xABF0, 0xFF10, 0x104A0,
  0x10D30, 0x11066, 0x110F0, 0x11136, 0x111D0, 0x112F0, 0x11450, 0x114D0, 0x11650, 0x116C0, 0x11730,
  0x118E0, 0x11950, 0x11C50, 0x11D50, 0x11DA0, 0x16A60, 0x16AC0, 0x16B50, 0x1D7CE, 0x1D7D8, 0x1D7E2,
  0x1D7EC, 0x1D7F6, 0x1E140, 0x1E2F0, 0x1E950, 0x1FBF0]

def isDecimalDigit (c : CodePoint) : Bool :=
  decimalZeros.any fun first => first ≤ c.toNat && c.toNat < first + 10

end Amalgam.Text
