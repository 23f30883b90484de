/-! # Hexadecimal numerals -/

namespace Amalgam.Text

/-- The lower-case hexadecimal numeral of `n`, filled up with zeros to `width` digits. -/
def hex (width n : Nat) : String :=
  let digits := Nat.toDigits 16 n
  String.ofList (List.replicate (width - digits.length) '0' ++ digits)

end Amalgam.Text
