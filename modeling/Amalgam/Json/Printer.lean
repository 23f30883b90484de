import Amalgam.Json.Value

/-! # Writing JSON

A value is written on one line with a blank after every comma and colon. Texts hold ASCII only: what
is outside is escaped by its UTF-16 units, of which half a surrogate pair is one.
-/

namespace Amalgam.Json

def escapeUnit (n : Nat) : String := "\\u" ++ Text.hex 4 n

def escapeChar (c : CodePoint) : Text :=
  if c = '"' then "\\\""
  else if c = '\\' then "\\\\"
  else if c = '\n' then "\\n"
  else if c = '\r' then "\\r"
  else if c = '\t' then "\\t"
  else if c.toNat = 8 then "\\b"
  else if c.toNat = 12 then "\\f"
  else if 0x20 ≤ c.toNat ∧ c.toNat < 0x7F then Text.singleton c
  else if c.toNat < 0x10000 then escapeUnit c.toNat
  else
    let rest := c.toNat - 0x10000
    escapeUnit (0xD800 + rest / 0x400) ++ escapeUnit (0xDC00 + rest % 0x400)

def printText (s : Text) : Text := "\"" ++ Text.join (s.toList.map escapeChar) ++ "\""

def Real.print : Real → String
  | .numeral n =>
    match n.magnitude with
    | .infinite => if n.negative then "-Infinity" else "Infinity"
    | _ => n.text
  | .infinite true => "-Infinity"
  | .infinite false => "Infinity"
  | .undefined => "NaN"

mutual

def Value.print : Value → Text
  | .null => "null"
  | .bool true => "true"
  | .bool false => "false"
  | .integer i => toString i
  | .real r => r.print
  | .text s => printText s
  | .array elements => "[" ++ printElements elements ++ "]"
  | .object members => "\x7b" ++ printMembers members ++ "\x7d"

def printElements : List Value → Text
  | [] => ""
  | [value] => value.print
  | value :: next :: rest => value.print ++ ", " ++ printElements (next :: rest)

def printMembers : List (Text × Value) → Text
  | [] => ""
  | [(name, value)] => printText name ++ ": " ++ value.print
  | (name, value) :: next :: rest =>
    printText name ++ ": " ++ value.print ++ ", " ++ printMembers (next :: rest)

end

end Amalgam.Json
