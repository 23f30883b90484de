import Amalgam.Text.Hex
import Amalgam.Text.Word
import Amalgam.Text.UnprintableTable

/-! # Quoted text

A text is quoted with single quotes, or with double quotes when it holds a single quote and no
double one. The quote and the backslash are escaped, and so is every code point that does not
print: by a letter for tab, newline and carriage return, else by its number.
-/

namespace Amalgam.Text

def isPrintable (c : CodePoint) : Bool :=
  if c.toNat < 0x80 then 0x20 ≤ c.toNat && c.toNat < 0x7F
  else !inRanges unprintableRanges c.toNat

namespace Quoted

def mark (text : Text) : CodePoint :=
  if text.toList.contains '\'' && !text.toList.contains '"' then '"' else '\''

def escape (quoteMark c : CodePoint) : Text :=
  if c = quoteMark ∨ c = '\\' then ofList ['\\', c]
  else if c = '\t' then "\\t"
  else if c = '\n' then "\\n"
  else if c = '\r' then "\\r"
  else if isPrintable c then singleton c
  else if c.toNat < 0x100 then "\\x" ++ hex 2 c.toNat
  else if c.toNat < 0x10000 then "\\u" ++ hex 4 c.toNat
  else "\\U" ++ hex 8 c.toNat

end Quoted

def quote (text : Text) : Text :=
  let quoteMark := Quoted.mark text
  let inner := text.toList.map (Quoted.escape quoteMark)
  singleton quoteMark ++ join inner ++ singleton quoteMark

end Amalgam.Text
