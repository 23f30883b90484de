/-! # Why a text is not JSON -/

namespace Amalgam.Json

inductive Complaint where
  | value
  | name
  | colon
  | comma
  | unterminated
  | control
  | escape
  | unicodeEscape
  | extra
  | byteOrderMark
deriving DecidableEq, Repr

inductive Container where
  | array
  | object
deriving DecidableEq, Repr

/-- What the reader finds wrong and at which offset, or which of its limits a text goes beyond. -/
inductive Failure where
  | complaint (what : Complaint) (offset : Nat)
  | longInteger (digits : Nat)
  | tooDeep (innermost : Container)
deriving DecidableEq, Repr

inductive Error where
  | malformed (what : Complaint) (line column offset : Nat)
  | longInteger (digits : Nat)
  | tooDeep (innermost : Container)
deriving DecidableEq, Repr

def Failure.locate (text : List Char) : Failure → Error
  | .longInteger digits => .longInteger digits
  | .tooDeep innermost => .tooDeep innermost
  | .complaint what offset =>
    let before := text.take offset
    let inLine := before.reverse.takeWhile (· ≠ '\n')
    .malformed what (before.count '\n' + 1) (inLine.length + 1) offset

def Complaint.message : Complaint → String
  | .value => "Expecting value"
  | .name => "Expecting property name enclosed in double quotes"
  | .colon => "Expecting ':' delimiter"
  | .comma => "Expecting ',' delimiter"
  | .unterminated => "Unterminated string starting at"
  | .control => "Invalid control character at"
  | .escape => "Invalid \\escape"
  | .unicodeEscape => "Invalid \\uXXXX escape"
  | .extra => "Extra data"
  | .byteOrderMark => "Unexpected UTF-8 BOM (decode using utf-8-sig)"

def Container.name : Container → String
  | .array => "array"
  | .object => "object"

def longestInteger : Nat := 4300

/-- The most containers that may stand inside one another. -/
def deepestNesting : Nat := 990

def Error.message : Error → String
  | .malformed what line column offset =>
    s!"{what.message}: line {line} column {column} (char {offset})"
  | .longInteger digits =>
    s!"Exceeds the limit ({longestInteger} digits) for integer string conversion: " ++
      s!"value has {digits} digits; use sys.set_int_max_str_digits() to increase the limit"
  | .tooDeep innermost =>
    s!"maximum recursion depth exceeded while decoding a JSON {innermost.name} " ++
      "from a unicode string"

end Amalgam.Json
