import Amalgam.Text.Lines

/-! # Parts of a merged file

A part is the name and the content of one fragment. In a merged file a banner comment names the part
that follows.
-/

namespace Amalgam.Merge

structure Part where
  filename : Text
  content : Text
deriving DecidableEq, Repr

def banner (filename : Text) : List Text := ["//", "// " ++ filename, "//", ""]

def underBanner (filename text : Text) : Text := Text.unlines (banner filename) ++ text ++ "\n"

def concatenate (parts : List Part) : Text :=
  Text.join (parts.map fun part => underBanner part.filename part.content)

end Amalgam.Merge
