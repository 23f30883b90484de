import Amalgam.Merge.CppHeader
import Amalgam.Merge.Kotlin
import Amalgam.Merge.Trampoline

/-! # Kinds of merging

The names of the output and of its parts decide how the parts are merged. None of the ways parses
its language; each does the least that keeps a concatenation compilable.
-/

namespace Amalgam.Merge

inductive MergeKind where
  | kotlin
  | cppHeader
  | objc
  | generic
deriving DecidableEq, Repr

def MergeKind.name : MergeKind → Text
  | .kotlin => "kotlin"
  | .cppHeader => "cpp_header"
  | .objc => "objc"
  | .generic => "generic"

def MergeKind.resolve (output : Text) (inputs : List Text) : MergeKind :=
  if inputs.any (Text.endsWith · ".kt") then .kotlin
  else if inputs.any (Text.endsWith · ".hpp") then .cppHeader
  else if Text.endsWith output ".m" then .objc
  else .generic

def MergeKind.merge : MergeKind → List Part → Text
  | .kotlin => Merge.kotlin
  | .cppHeader => Merge.cppHeader
  | .objc => Merge.objc
  | .generic => concatenate

/-- The relative path of the merged file: the package declaration places Kotlin sources. -/
def MergeKind.placed (relativePath : Option Text) : MergeKind → Option Text
  | .kotlin => none
  | _ => relativePath

end Amalgam.Merge
