import Amalgam.Decimal.Shortest
import Amalgam.NameSet
import Amalgam.Table
import Amalgam.Text.Quoted

/-! # JSON values

Numbers with a point or an exponent stay decimal numerals and are never integers. The members of an
object stand in the order of their first occurrence, each name once.
-/

namespace Amalgam.Json

inductive Real where
  | numeral (n : Decimal.Numeral)
  | infinite (negative : Bool)
  | undefined
deriving DecidableEq, Repr

inductive Value where
  | null
  | bool (b : Bool)
  | integer (i : Int)
  | real (r : Real)
  | text (s : Text)
  | array (elements : List Value)
  | object (members : List (Text × Value))
deriving Repr

abbrev Members := Table Text Value

/-- A later value for a name takes the place of an earlier one. -/
def Members.ofPairs (pairs : List (Text × Value)) : Members :=
  pairs.foldl (fun members (name, value) => Table.put members name value) []

def Members.names (members : Members) : NameSet := .ofList (members.map Prod.fst)

/-- The names that are none of `known`, in order. -/
def Members.unknown (members : Members) (known : List Text) : List Text :=
  members.names.toList.filter fun name => !known.contains name

def Real.text : Real → String
  | .numeral n => n.text
  | .infinite true => "-inf"
  | .infinite false => "inf"
  | .undefined => "nan"

mutual

/-- A value as it appears inside a list or an object of a message. -/
def Value.inspect : Value → Text
  | .null => "None"
  | .bool true => "True"
  | .bool false => "False"
  | .integer i => toString i
  | .real r => r.text
  | .text s => Text.quote s
  | .array elements => "[" ++ inspectElements elements ++ "]"
  | .object members => "\x7b" ++ inspectMembers members ++ "\x7d"

def inspectElements : List Value → Text
  | [] => ""
  | [value] => value.inspect
  | value :: next :: rest => value.inspect ++ ", " ++ inspectElements (next :: rest)

def inspectMembers : List (Text × Value) → Text
  | [] => ""
  | [(name, value)] => Text.quote name ++ ": " ++ value.inspect
  | (name, value) :: next :: rest =>
    Text.quote name ++ ": " ++ value.inspect ++ ", " ++ inspectMembers (next :: rest)

end

/-- A value as a message shows it: a text stands for itself. -/
def Value.display : Value → Text
  | .text s => s
  | value => value.inspect

end Amalgam.Json
