import Amalgam.Text.Basic

/-! # Parts of a text

Tests for how a text begins, ends and what it holds, and the replacement of a part, all on the
code points of the text.
-/

namespace Amalgam.Text

def startsWith (text beginning : Text) : Bool := beginning.toList.isPrefixOf text.toList

def endsWith (text ending : Text) : Bool := ending.toList.isSuffixOf text.toList

/-- What precedes the ending of a text, if the text has that ending. -/
def withoutEnding? (text ending : Text) : Option Text :=
  if endsWith text ending then
    some (ofList (text.toList.take (text.toList.length - ending.toList.length)))
  else none

def occursIn (pattern : List CodePoint) : List CodePoint → Bool
  | [] => pattern.isEmpty
  | c :: rest => pattern.isPrefixOf (c :: rest) || occursIn pattern rest

def contains (text pattern : Text) : Bool := occursIn pattern.toList text.toList

/-- Replaces the occurrences of a non-empty pattern from the left, none overlapping the one before.
The first argument counts the code points of the last occurrence that are still to be passed
over. -/
def replaceFrom (pattern replacement : List CodePoint) : Nat → List CodePoint → List CodePoint
  | _, [] => []
  | skip + 1, _ :: rest => replaceFrom pattern replacement skip rest
  | 0, c :: rest =>
    if pattern.isPrefixOf (c :: rest) then
      replacement ++ replaceFrom pattern replacement (pattern.length - 1) rest
    else c :: replaceFrom pattern replacement 0 rest

def replaceAll (text pattern replacement : Text) : Text :=
  ofList (replaceFrom pattern.toList replacement.toList 0 text.toList)

end Amalgam.Text
