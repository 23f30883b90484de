import Amalgam.Grouping
import Amalgam.Merge.Part
import Amalgam.Text.Substring

/-! # Kotlin sources

A source begins with header lines: `package` and `import` lines and empty ones. Those of all parts
are hoisted to the top, each once and in the order in which they are first seen; the bodies follow.
-/

namespace Amalgam.Merge

def isKotlinHeader (line : Text) : Bool :=
  Text.startsWith line "package " || Text.startsWith line "import " || line = ""

theorem isKotlinHeader_iff {line : Text} :
    isKotlinHeader line = true ↔
      ("package " : Text).toList <+: line.toList ∨ ("import " : Text).toList <+: line.toList ∨
        line = "" := by
  simp only [isKotlinHeader, Text.startsWith, Bool.or_eq_true, List.isPrefixOf_iff_prefix,
    decide_eq_true_iff, or_assoc]

def kotlinLines (part : Part) : List Text :=
  Text.lines (Text.ofList (Text.dropCarriageReturns part.content.toList))

def kotlinHeader (part : Part) : List Text :=
  ((kotlinLines part).takeWhile isKotlinHeader).filter (· ≠ "")

/-- The banner and the lines from the first one on that is no header line, if there is one. -/
def kotlinBody (part : Part) : List Text :=
  match (kotlinLines part).dropWhile isKotlinHeader with
  | [] => []
  | line :: rest => banner part.filename ++ line :: rest

def kotlin (parts : List Part) : Text :=
  Text.unlines (distinct (parts.flatMap kotlinHeader) ++ ("" : Text) :: parts.flatMap kotlinBody)

end Amalgam.Merge
