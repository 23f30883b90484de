import Amalgam.Merge.Part

/-! # C++ headers

The guard line of a header stands once at the top of the merged one, and nowhere else.
-/

namespace Amalgam.Merge

def pragmaOnce : Text := "#pragma once"

def cppHeaderLines (part : Part) : List Text :=
  banner part.filename ++ (Text.lines part.content).filter (· ≠ pragmaOnce) ++ ([""] : List Text)

def cppHeader (parts : List Part) : Text :=
  Text.unlines (pragmaOnce :: parts.flatMap cppHeaderLines)

end Amalgam.Merge
