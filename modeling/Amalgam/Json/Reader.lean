import Amalgam.Json.Error
import Amalgam.Json.Value

/-! # Reading JSON

The reader works on the characters that are left and the offset of the first of them. Every value
consumes a character, which is what `Parsed.shorter` records and why reading ends. A name given
twice keeps its first place and its last value; `NaN` and the infinities are values. Integers and
nesting have a limit each.
-/

namespace Amalgam.Json

structure Parsed (α : Type) (text : List Char) where
  result : α
  offset : Nat
  rest : List Char
  shorter : rest.length < text.length

def isBlank (c : Char) : Bool := c = ' ' || c = '\t' || c = '\n' || c = '\r'

structure Remaining (text : List Char) where
  offset : Nat
  rest : List Char
  notLonger : rest.length ≤ text.length

def skipBlanks (offset : Nat) (text : List Char) : Remaining text where
  offset := offset + (text.takeWhile isBlank).length
  rest := text.dropWhile isBlank
  notLonger := (List.dropWhile_sublist _).length_le

/-! ## Strings -/

def hexValue? (c : Char) : Option Nat :=
  if '0' ≤ c ∧ c ≤ '9' then some (c.toNat - '0'.toNat)
  else if 'a' ≤ c ∧ c ≤ 'f' then some (c.toNat - 'a'.toNat + 10)
  else if 'A' ≤ c ∧ c ≤ 'F' then some (c.toNat - 'A'.toNat + 10)
  else none

def hexUnit? (digits : List Char) : Option Nat := do
  let values ← digits.mapM hexValue?
  if values.length = 4 then some (values.foldl (fun n d => 16 * n + d) 0) else none

def isHighSurrogate (n : Nat) : Bool := 0xD800 ≤ n && n < 0xDC00

def isLowSurrogate (n : Nat) : Bool := 0xDC00 ≤ n && n < 0xE000

/-- A unit outside the range of the halves is a character. -/
def unitPoint (n : Nat) : CodePoint :=
  if isHighSurrogate n || isLowSurrogate n then .surrogate (Fin.ofNat _ (n - 0xD800))
  else Char.ofNat n

/-- The code point of an escape with four digits and how many characters after the `u` it takes. A
character has to follow the digits; a second escape is looked at only if one follows it as well, and
two halves are one character only if they are escaped one behind the other. -/
def unicodeEscape (offset : Nat) (text : List Char) : Except Failure (CodePoint × Nat) :=
  if text.length ≤ 4 then .error (.complaint .unicodeEscape offset)
  else match hexUnit? (text.take 4) with
    | none => .error (.complaint .unicodeEscape offset)
    | some unit =>
      let after := text.drop 4
      if isHighSurrogate unit && 6 < after.length && ['\\', 'u'].isPrefixOf after then
        match hexUnit? ((after.drop 2).take 4) with
        | none => .error (.complaint .unicodeEscape (offset + 6))
        | some low =>
          if isLowSurrogate low then
            .ok (.char (Char.ofNat (0x10000 + (unit - 0xD800) * 0x400 + (low - 0xDC00))), 10)
          else .ok (unitPoint unit, 4)
      else .ok (unitPoint unit, 4)

def letterEscape? : Char → Option Char
  | '"' => some '"'
  | '\\' => some '\\'
  | '/' => some '/'
  | 'b' => some (Char.ofNat 8)
  | 'f' => some (Char.ofNat 12)
  | 'n' => some '\n'
  | 'r' => some '\r'
  | 't' => some '\t'
  | _ => none

def string (opening offset : Nat) (done : List CodePoint) (text : List Char) :
    Except Failure (Parsed Text text) :=
  match text with
  | [] => .error (.complaint .unterminated opening)
  | '"' :: rest => .ok ⟨.ofList done.reverse, offset + 1, rest, by simp⟩
  | ['\\'] => .error (.complaint .unterminated opening)
  | '\\' :: 'u' :: rest => do
    let (c, taken) ← unicodeEscape (offset + 1) rest
    let tail ← string opening (offset + 2 + taken) (c :: done) (rest.drop taken)
    return ⟨tail.result, tail.offset, tail.rest, by
      have := tail.shorter
      simp only [List.length_drop, List.length_cons] at this ⊢
      omega⟩
  | '\\' :: c :: rest =>
    match letterEscape? c with
    | none => .error (.complaint .escape offset)
    | some c => do
      let tail ← string opening (offset + 2) (c :: done) rest
      return ⟨tail.result, tail.offset, tail.rest, by
        have := tail.shorter
        simp only [List.length_cons]
        omega⟩
  | c :: rest =>
    if c.toNat < 0x20 then .error (.complaint .control offset)
    else do
      let tail ← string opening (offset + 1) (c :: done) rest
      return ⟨tail.result, tail.offset, tail.rest, by
        have := tail.shorter
        simp only [List.length_cons]
        omega⟩
termination_by text.length
decreasing_by all_goals (simp only [List.length_drop, List.length_cons]; omega)

/-! ## Numbers -/

def digitsValue (digits : List Char) : Nat :=
  digits.foldl (fun n c => 10 * n + (c.toNat - '0'.toNat)) 0

def wholeDigits : List Char → List Char
  | [] => []
  | c :: rest =>
    if c = '0' then ['0'] else if c.isDigit then c :: rest.takeWhile Char.isDigit else []

def fractionDigits : List Char → List Char
  | '.' :: rest => rest.takeWhile Char.isDigit
  | _ => []

structure ExponentPart where
  value : Int
  length : Nat

def exponentPart? : List Char → Option ExponentPart
  | c :: rest =>
    if c = 'e' ∨ c = 'E' then
      let signed := match rest with
        | '-' :: _ | '+' :: _ => 1
        | _ => 0
      let digits := (rest.drop signed).takeWhile Char.isDigit
      let value : Int := digitsValue digits
      if digits.isEmpty then none
      else some ⟨if rest.head? = some '-' then -value else value, 1 + signed + digits.length⟩
    else none
  | [] => none

/-- The number at the front and how many characters it takes: the longest one, so that what does not
continue it is left over. -/
def number? (text : List Char) : Option (Except Failure Value × Nat) :=
  let negative := text.head? = some '-'
  let start := if negative then 1 else 0
  let whole := wholeDigits (text.drop start)
  if whole.isEmpty then none
  else
    let afterWhole := text.drop (start + whole.length)
    let fraction := fractionDigits afterWhole
    let point := if fraction.isEmpty then 0 else 1 + fraction.length
    let exponent := exponentPart? (afterWhole.drop point)
    let length := start + whole.length + point + (exponent.map (·.length)).getD 0
    if fraction.isEmpty ∧ exponent.isNone then
      let value : Int := digitsValue whole
      if longestInteger < whole.length then some (.error (.longInteger whole.length), length)
      else some (.ok (.integer (if negative then -value else value)), length)
    else
      let power := (exponent.map (·.value)).getD 0 - fraction.length
      some (.ok (.real (.numeral ⟨negative, digitsValue (whole ++ fraction), power⟩)), length)

def literals : List (String × Value) := [
  ("null", .null), ("true", .bool true), ("false", .bool false), ("NaN", .real .undefined),
  ("Infinity", .real (.infinite false)), ("-Infinity", .real (.infinite true))]

def scalar? (text : List Char) : Option (Except Failure Value × Nat) :=
  match literals.find? fun literal => literal.1.toList.isPrefixOf text with
  | some (word, value) => some (.ok value, word.length)
  | none => number? text

/-! ## Values

A value may hold `room` containers inside one another.
-/

mutual

def value (room offset : Nat) (text : List Char) : Except Failure (Parsed Value text) :=
  match text with
  | '"' :: rest => do
    let ⟨result, offset, rest, shorter⟩ ← string offset (offset + 1) [] rest
    return ⟨.text result, offset, rest, by grind⟩
  | '[' :: rest =>
    let ⟨offset, inner, notLonger⟩ := skipBlanks (offset + 1) rest
    if room = 0 then .error (.tooDeep .array)
    else if inner.head? = some ']' then .ok ⟨.array [], offset + 1, inner.drop 1, by grind⟩
    else do
      let ⟨result, offset, rest, shorter⟩ ← elements (room - 1) offset inner
      return ⟨.array result, offset, rest, by grind⟩
  | '\x7b' :: rest =>
    let ⟨offset, inner, notLonger⟩ := skipBlanks (offset + 1) rest
    if room = 0 then .error (.tooDeep .object)
    else if inner.head? = some '\x7d' then .ok ⟨.object [], offset + 1, inner.drop 1, by grind⟩
    else do
      let ⟨result, offset, rest, shorter⟩ ← members (room - 1) offset inner
      return ⟨.object (Members.ofPairs result), offset, rest, by grind⟩
  | text =>
    match scalar? text with
    | none => .error (.complaint .value offset)
    | some (result, length) => do
      let result ← result
      if h : 0 < length ∧ length ≤ text.length then
        .ok ⟨result, offset + length, text.drop length, by grind⟩
      else .error (.complaint .value offset)
termination_by 2 * text.length

def elements (room offset : Nat) (text : List Char) :
    Except Failure (Parsed (List Value) text) := do
  let ⟨first, offset, rest, shorter⟩ ← value room offset text
  let ⟨offset, after, notLonger⟩ := skipBlanks offset rest
  if after.head? = some ']' then .ok ⟨[first], offset + 1, after.drop 1, by grind⟩
  else if after.head? = some ',' then do
    let ⟨offset, next, nextNotLonger⟩ := skipBlanks (offset + 1) (after.drop 1)
    have : next.length < text.length := by grind
    let ⟨others, offset, rest, shorter⟩ ← elements room offset next
    return ⟨first :: others, offset, rest, by grind⟩
  else .error (.complaint .comma offset)
termination_by 2 * text.length + 1

/-- The members of an object from the first name on, its closing brace included. -/
def members (room offset : Nat) (text : List Char) :
    Except Failure (Parsed (List (Text × Value)) text) :=
  match text with
  | '"' :: rest => do
    let ⟨name, offset, afterName, nameShorter⟩ ← string offset (offset + 1) [] rest
    let ⟨offset, colon, colonNotLonger⟩ := skipBlanks offset afterName
    if colon.head? = some ':' then do
      let ⟨offset, start, startNotLonger⟩ := skipBlanks (offset + 1) (colon.drop 1)
      have : start.length < rest.length := by grind
      let ⟨first, offset, afterValue, shorter⟩ ← value room offset start
      let ⟨offset, after, notLonger⟩ := skipBlanks offset afterValue
      if after.head? = some '\x7d' then
        .ok ⟨[(name, first)], offset + 1, after.drop 1, by grind⟩
      else if after.head? = some ',' then do
        let ⟨offset, next, nextNotLonger⟩ := skipBlanks (offset + 1) (after.drop 1)
        have : next.length < rest.length := by grind
        let ⟨others, offset, rest, shorter⟩ ← members room offset next
        return ⟨(name, first) :: others, offset, rest, by grind⟩
      else .error (.complaint .comma offset)
    else .error (.complaint .colon offset)
  | _ => .error (.complaint .name offset)
termination_by 2 * text.length + 1

end

/-- Reads a text that holds one value and else only blanks. -/
def document (text : List Char) : Except Failure Value :=
  if text.head? = some '\uFEFF' then .error (.complaint .byteOrderMark 0)
  else do
    let start := skipBlanks 0 text
    let parsed ← value deepestNesting start.offset start.rest
    let after := skipBlanks parsed.offset parsed.rest
    if after.rest.isEmpty then return parsed.result
    else throw (.complaint .extra after.offset)

def parse (text : List Char) : Except Error Value :=
  (document text).mapError (Failure.locate text)

end Amalgam.Json
