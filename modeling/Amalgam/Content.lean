import Amalgam.FileTree.Operations
import Amalgam.Text.Utf8

/-! # Content of a source

Content is a text, octets that have yet to be decoded, or a path whose file is read each time.
Octets are read as strict UTF-8 and nothing in them is changed.
-/

namespace Amalgam

inductive Content where
  | text (s : Text)
  | octets (bytes : List UInt8)
  | stored (path : Path)
deriving DecidableEq, Repr

instance : Inhabited Content := ⟨.text ""⟩

inductive ReadError where
  | file (e : FileError)
  | undecodable (e : Text.Utf8.Error)
deriving DecidableEq, Repr

def ReadError.message : ReadError → Text
  | .file e => e.message
  | .undecodable e => e.message

def FileTree.readCharacters (t : FileTree) (p : Path) : Except ReadError (List Char) := do
  let octets ← (t.read p).mapError .file
  (Text.Utf8.decode octets).mapError .undecodable

def Content.read (t : FileTree) : Content → Except ReadError Text
  | .text s => .ok s
  | .octets bytes => ((Text.Utf8.decode bytes).mapError .undecodable).map Text.ofChars
  | .stored path => (t.readCharacters path).map Text.ofChars

end Amalgam
