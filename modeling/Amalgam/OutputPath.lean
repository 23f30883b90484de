import Amalgam.Item

/-! # Where outputs go

An output goes below the directory of its platform, into its relative path and under its filename.
Both are read with backslashes as slashes and have to be relative, without `..`.
-/

namespace Amalgam

inductive OutputPathError where
  | absolute (what text : Text)
  | dotted (what text : Text)
deriving DecidableEq, Repr

def OutputPathError.message : OutputPathError → Text
  | .absolute what text => what ++ " must be a relative path, got: " ++ text
  | .dotted what text => what ++ " must not contain '.' or '..', got: " ++ text

namespace OutputPath

def slashes (text : Text) : Text :=
  Text.ofList (text.toList.map fun c : CodePoint => if c = '\\' then '/' else c)

/-- Reads a relative path; `what` is how an error calls it. -/
def normalize (what text : Text) : Except OutputPathError Path :=
  let path := Path.ofText (slashes text)
  if path.isAbsolute then .error (.absolute what text)
  else if path.parts.any fun name => name = "." || name = ".." then .error (.dotted what text)
  else .ok path

def platformDirectory (platform : Option Platform) : Text :=
  (platform.map Platform.name).getD "any"

def relativePath (source : NativeSource) : Except OutputPathError Path :=
  match source.relativePath with
  | none => .ok .here
  | some text =>
    if text = "" then .ok .here else normalize ("relative path of '" ++ source.filename ++ "'") text

def place (platform : Option Platform) (source : NativeSource) : Except OutputPathError Path := do
  let directory ← relativePath source
  let name ← normalize "output filename" source.filename
  return .ofText (platformDirectory platform) / directory / name

def destination (out : Path) (platform : Option Platform) (source : NativeSource) :
    Except OutputPathError Path := do
  return out / (← place platform source)

end OutputPath

end Amalgam
